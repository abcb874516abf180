import CodeAudit.Proofs.Outcome.Settled
import CodeAudit.Proofs.Scan.Builtin
import CodeAudit.Proofs.Scan.Findings
import CodeAudit.Proofs.Scan.Told
namespace CodeAudit

/-- The lines still to come are as many as the line ends, and one more for what stands open when the
text is over. -/
theorem Text.length_splitLinesFrom (current cs : List Char) (hcr : '\r' ∉ cs) :
    (splitLinesFrom current cs).length =
      cs.countP isLineBreak + if (cs.getLast?.elim current.isEmpty isLineBreak) then 0 else 1 := by
  fun_induction splitLinesFrom current cs with
  | case1 current hnone => simp [hnone]
  | case2 current hsome => simp [hsome]
  | case3 current rest ih => simp at hcr
  | case4 current c rest hpair hbreak ih =>
    have hrest : '\r' ∉ rest := fun h => hcr (List.mem_cons_of_mem c h)
    rw [List.length_cons, ih hrest, List.countP_cons_of_pos hbreak]
    cases rest with
    | nil => simp [hbreak]
    | cons d rest =>
      rw [List.getLast?_cons_cons]
      simp only [List.getLast?_cons, Option.elim_some]
      omega
  | case5 current c rest hpair hbreak ih =>
    have hrest : '\r' ∉ rest := fun h => hcr (List.mem_cons_of_mem c h)
    rw [ih hrest, List.countP_cons_of_neg hbreak]
    cases rest with
    | nil => simp [hbreak]
    | cons d rest =>
      rw [List.getLast?_cons_cons]
      simp only [List.getLast?_cons, Option.elim_some]

namespace LineCheck
variable {files : FileTree} {root place : Place} {limit : Int} {path : String} {n : Nat}

/-- The file at a place can be read, and its text has so many lines: one for each line end, and one
for what follows the last of them. -/
def HasLines (files : FileTree) (place : Place) (n : Nat) : Prop :=
  ∃ bytes, files.read place = .ok bytes ∧
    let cs := Text.unifyNewlines (Text.decodeLossy bytes)
    n = cs.countP Text.isLineBreak + if cs.getLast?.elim true Text.isLineBreak then 0 else 1

theorem count?_eq_some_iff : count? files place = some n ↔ HasLines files place n := by
  unfold count? HasLines
  cases files.read place with
  | error e => simp
  | ok bytes =>
    have hcount := Text.length_splitLinesFrom [] (Text.unifyNewlines (Text.decodeLossy bytes))
      (Text.not_mem_unifyNewlines _)
    simp only [Text.splitLines, hcount, Option.some.injEq, Except.ok.injEq, exists_eq_left']
    exact eq_comm

theorem finding?_eq_some_iff {f : Finding} : finding? files root limit path = some f ↔
    ∃ n, f = finding path n limit ∧ limit < n ∧
      HasLines files ((Path.mk .root root).child path).names n := by
  simp only [← count?_eq_some_iff]
  unfold finding?
  cases count? files ((Path.mk .root root).child path).names with
  | none => simp
  | some n =>
    simp only [Option.some.injEq]
    constructor
    · intro h
      by_cases hlong : limit < n
      · rw [if_pos hlong] at h
        exact ⟨n, (Option.some.inj h).symm, hlong, rfl⟩
      · rw [if_neg hlong] at h
        cases h
    · intro h
      obtain ⟨_, rfl, hlong, rfl⟩ := h
      rw [if_pos hlong]

variable {exempt : IgnoreFilter} {paths : List String}

theorem mem_found {f : Finding} : f ∈ found files root limit exempt paths ↔
    ∃ n, f = finding f.file n limit ∧ f.file ∈ paths ∧ exempt.ignores f.file = false ∧
      limit < n ∧ HasLines files ((Path.mk .root root).child f.file).names n := by
  rw [found, List.mem_filterMap]
  constructor
  · intro h
    obtain ⟨path, hpath, hf⟩ := h
    obtain ⟨hscanned, hkept⟩ := List.mem_filter.mp hpath
    have hsubject : exempt.ignores path = false := by simpa using hkept
    obtain ⟨n, rfl, hlong, hlines⟩ := finding?_eq_some_iff.mp hf
    exact ⟨n, rfl, hscanned, hsubject, hlong, hlines⟩
  · intro h
    obtain ⟨n, hf, hscanned, hkept, hlong, hlines⟩ := h
    refine ⟨f.file, List.mem_filter.mpr ⟨hscanned, by simpa using hkept⟩, ?_⟩
    exact finding?_eq_some_iff.mpr ⟨n, hf, hlong, hlines⟩

/-- What a line check has to come to: one finding for each file that is not exempt and is longer
than the limit, in the order of the files. -/
structure Reports (files : FileTree) (root : Path) (limit : Int) (exempt : IgnoreFilter)
    (paths : List String) (o : Outcome) : Prop where
  tool : o.tool = "line-check"
  error : o.error = none
  ordered : (o.findings.map (·.file)).Sublist paths
  once : (o.findings.map (·.file)).Nodup
  exactly : ∀ path n, (∃ f ∈ o.findings, f.file = path ∧ f.line = (n : Nat)) ↔
    path ∈ paths ∧ exempt.ignores path = false ∧ HasLines files (root.child path).names n ∧
      limit < n
  form : ∀ f ∈ o.findings, f.rule = "max-lines" ∧ ∃ n, f = finding f.file n limit

end LineCheck

namespace Host
open Act Outcome
variable {h : Host} {r : Registry} {s : Settings} {directory : Path} {user bundled : Option Path}
  {i : Inventory} {p : Precheck} {selected : List Analyzer} {w v : World}

/-- Findings in scanned files without backslashes are kept as they are. -/
theorem localFindings_of_scanned {files : FileTree} (hw : files.WellFormed)
    {exclude only : List String} (hs : h.scan files directory exclude only = .ok i)
    (hslash : ∀ path ∈ i.files, '\\' ∉ path.toList) {findings : List Finding}
    (hf : ∀ f ∈ findings, f.file ∈ i.files) :
    localFindings i.root i.scope findings = findings := by
  rw [localFindings_eq_self_iff]
  intro f hmem
  have hscanned := hf f hmem
  obtain ⟨⟨entries, hd⟩, -⟩ := scan_ok hs
  obtain ⟨place, hplace, hpath⟩ := (mem_files hs f.file).mp hscanned
  have hnames := Inventory.isName_of_mem_sources _ _ _ hw entries hd place hplace
  have hhead : f.file.toList.head? ≠ some '/' := by
    rw [← hpath]
    exact Path.head_intercalate_ne_slash place hnames
  exact ⟨⟨hhead, hslash f.file hscanned⟩, covers_of_mem_files hw hs hscanned⟩

/-- With a limit, the line check comes to an answer only if the patterns for what is exempt form a
filter. -/
theorem lineCheck_eq_ok {checked : List Outcome} {w' : World} (hon : 0 < s.maxLines)
    (hr : (h.lineCheck s i).on w = (.ok checked, w')) :
    w' = w ∧ ∃ exempt, IgnoreFilter.ofLines s.lineCheckOmit = .ok exempt ∧
      checked = [h.checkedLines s i w.files exempt] := by
  cases he : IgnoreFilter.ofLines s.lineCheckOmit with
  | ok exempt =>
    cases hr.symm.trans (lineCheck_of_ok hon he w)
    exact ⟨rfl, exempt, rfl, rfl⟩
  | error refusal => cases hr.symm.trans (lineCheck_of_error hon he w)

/-- The findings of the line check are in scanned files, and are all kept. -/
theorem findings_checkedLines (files : FileTree) (hw : w.files.WellFormed)
    (hscan : h.scan w.files directory s.exclude s.only = .ok i)
    (hslash : ∀ path ∈ i.files, '\\' ∉ path.toList) (exempt : IgnoreFilter) :
    ((h.checkedLines s i files exempt).localize i.root i.scope).findings =
      LineCheck.found files i.root.names s.maxLines exempt i.files := by
  rw [findings_localize i.root i.scope (h.checkedLines s i files exempt) rfl]
  refine localFindings_of_scanned hw hscan hslash fun f hf => ?_
  obtain ⟨n, -, hmem, -⟩ := LineCheck.mem_found.mp hf
  exact hmem

/-- The line check is the last step of a scan and looks at the files as the analyzers left them. -/
theorem runReady_checked {result : ScanResult} {w' : World} (hon : 0 < s.maxLines)
    (hr : (h.runReady s i p user bundled).on w = (.ok result, w')) :
    ∃ (exempt : IgnoreFilter) (before : List Outcome),
      IgnoreFilter.ofLines s.lineCheckOmit = .ok exempt ∧
      result.outcomes =
        before ++ [(h.checkedLines s i w'.files exempt).localize i.root i.scope] := by
  obtain ⟨scheduled, raw, v, checked, report, -, -, hchecked, -, rfl⟩ := runReady_eq_ok.mp hr
  obtain ⟨rfl, exempt, hl, rfl⟩ := lineCheck_eq_ok hon hchecked
  have houtcomes : (gathered i p (raw ++ [h.checkedLines s i w'.files exempt])).outcomes =
      (gathered i p raw).outcomes ++
        [(h.checkedLines s i w'.files exempt).localize i.root i.scope] := List.map_append
  exact ⟨exempt, _, hl, houtcomes⟩

/-- Two files of two lines each, one of which does not end its last line. -/
def longTree : FileTree :=
  .directory [("repo", .directory [
    ("app.py", .file (Text.encode "a\x0cb") false),
    ("gen.py", .file (Text.encode "a\r\nb\r\n") false)])]

def shortSettings : Settings := { maxLines := 1, lineCheckOmit := ["gen.py"] }

theorem long_scan :
    ∃ i, sampleHost.scan longTree sampleRoot [] [] = .ok i ∧ i.root = sampleRoot ∧
      (∀ path, path ∈ i.files ↔ path ∈ ["app.py", "gen.py"]) ∧ ".py" ∈ i.extensions := by
  have hat : sampleHost.scannable longTree sampleRoot = .ok sampleRoot.names := rfl
  obtain ⟨i, hs, hroot, hsources⟩ := scan_of_leaves (by decide) hat rfl (by decide) (by simp)
    (by decide) (by decide)
  have hread : Inventory.sources i.scope longTree sampleRoot.names = [["app.py"], ["gen.py"]] := by
    rw [hsources]
    decide
  refine ⟨i, hs, hroot, fun path => ?_, ?_⟩
  · have hpaths : [["app.py"], ["gen.py"]].map Inventory.pathText = ["app.py", "gen.py"] := by decide
    rw [mem_files hs, hroot, hread, ← hpaths, List.mem_map]
  · rw [mem_extensions hs, hroot, hread]
    exact ⟨["app.py"], by simp, by decide⟩

/-- A scan of the two files comes to an answer and leaves them as they are. -/
theorem long_run : ∃ i p v result,
    sampleHost.scan longTree sampleRoot [] [] = .ok i ∧ i.root = sampleRoot ∧
    (∀ path, path ∈ i.files ↔ path ∈ ["app.py", "gen.py"]) ∧
    (Registry.mk [raisingAnalyzer]).select i.extensions [] = .ok [raisingAnalyzer] ∧
    (sampleHost.precheck [raisingAnalyzer] false).on { files := longTree } = (.ok p, v) ∧
    p.ok = true ∧ v.files = longTree ∧
    (sampleHost.runReady shortSettings i p none none).on v = (.ok result, v) ∧
    (sampleHost.runScan ⟨[raisingAnalyzer]⟩ shortSettings sampleRoot none none).on
      { files := longTree } = (.ok result, v) := by
  obtain ⟨i, hs, hroot, hf, hpy⟩ := long_scan
  have hfiles : i.files ≠ [] := List.ne_nil_of_mem ((hf "app.py").mpr (by simp))
  obtain ⟨config, hconfig⟩ : ∃ config,
      sampleHost.configOf longTree "probe" i.root none none = .ok config := by
    rw [hroot]
    exact ⟨_, rfl⟩
  obtain ⟨exempt, hexempt⟩ : ∃ exempt, IgnoreFilter.ofLines shortSettings.lineCheckOmit =
      .ok exempt := ⟨_, rfl⟩
  have hchecked (v : World) (hv : v.files = longTree) :
      (sampleHost.lineCheck shortSettings i).on v =
        (.ok [sampleHost.checkedLines shortSettings i longTree exempt], v) :=
    hv ▸ lineCheck_of_ok (by decide) hexempt v
  have hlegible : ∀ f ∈ (sampleHost.checkedLines shortSettings i longTree exempt).findings,
      f.Legible := by
    intro f hmem
    obtain ⟨n, hform, hscanned, -, -, hlines⟩ := LineCheck.mem_found.mp hmem
    have hshort : ∀ path ∈ ["app.py", "gen.py"],
        LineCheck.count? longTree ((Path.mk .root sampleRoot.names).child path).names = some 2 := by
      decide +kernel
    have hcount := LineCheck.count?_eq_some_iff.mpr hlines
    rw [hroot, hshort f.file ((hf _).mp hscanned)] at hcount
    obtain rfl := Option.some.inj hcount
    have htwo : Json.Legible (.int 2) := Json.legible_digit (by decide)
    rw [hform]
    exact ⟨htwo, by simp [LineCheck.finding]⟩
  obtain ⟨p, v, result, hselect, hp, hok, hv, hready, hrun, -⟩ :=
    raising_run (s := shortSettings) rfl rfl rfl rfl hs hfiles hpy hconfig hchecked
      (List.forall_mem_singleton.mpr hlegible)
  exact ⟨i, p, v, result, hs, hroot, hf, hselect, hp, hok, hv, hready, hrun⟩

theorem long_noBackslash : ∀ path ∈ ["app.py", "gen.py"], '\\' ∉ path.toList := by decide

end Host
end CodeAudit
