import CodeAudit.Proofs.Analyzer.Dependency
import CodeAudit.Proofs.Outcome.Settled
import CodeAudit.Proofs.Scan.Builtin
import CodeAudit.Proofs.Scan.Findings
namespace CodeAudit

namespace Outcome
variable (directory : Path) (scope : Scope)

/-- Findings of a kind that files have no part in are the same before and after they are read from
a directory. -/
theorem filter_localFindings {kind : Finding → Bool}
    (hkind : ∀ f file, kind { f with file } = kind f) (findings : List Finding) :
    (localFindings directory scope findings).filter kind =
      localFindings directory scope (findings.filter kind) := by
  induction findings with
  | nil => rfl
  | cons f rest ih =>
    rw [localFindings_cons, List.filter_cons]
    by_cases hcovers : scope.covers (directory.relativize f.file) = true
    · rw [if_pos hcovers, List.filter_cons, hkind, ih]
      by_cases hf : kind f = true
      · rw [if_pos hf, if_pos hf, localFindings_cons, if_pos hcovers]
      · rw [if_neg hf, if_neg hf]
    · rw [if_neg hcovers, ih]
      by_cases hf : kind f = true
      · rw [if_pos hf, localFindings_cons, if_neg hcovers]
      · rw [if_neg hf]

/-- What findings answer to stays with those that count. -/
theorem forall₂_localFindings {α : Type} {R : α → Finding → Prop} {file : α → String}
    (hfile : ∀ a f, R a f → f.file = file a) {as : List α} {findings : List Finding}
    (h : List.Forall₂ R as findings) :
    List.Forall₂ (fun a g => ∃ f, R a f ∧ g = { f with file := directory.relativize f.file })
      (as.filter fun a => scope.covers (directory.relativize (file a)))
      (localFindings directory scope findings) := by
  induction h with
  | nil => exact .nil
  | @cons a f as findings hf _ ih =>
    rw [localFindings_cons, List.filter_cons, hfile a f hf]
    by_cases hcovers : scope.covers (directory.relativize (file a)) = true
    · rw [if_pos hcovers, if_pos hcovers]
      exact .cons ⟨f, hf, hfile a f hf ▸ rfl⟩ ih
    · rw [if_neg hcovers, if_neg hcovers]
      exact ih

end Outcome

namespace Host
open Inventory
variable {h : Host} {files : FileTree} {p : Path} {i : Inventory}

/-- A target that is read without white space at its ends, and is a file's name or its path, does not
leave a line end in the name. -/
theorem last_of_target (hs : h.scan files p [] [] = .ok i) {n target : String}
    (hn : Path.IsName n) (htarget : target = n ∨ target = (i.root.child n).text)
    (hlast : ∀ c, target.toList.getLast? = some c → Text.isBlank c = false) :
    n.toList.getLast? ≠ some '\n' := by
  intro hend
  obtain ⟨-, -, -, hi, -⟩ := scan_ok hs
  have hroot : i.root = ⟨.root, i.root.names⟩ := congrArg Inventory.root hi
  have hsuffix : n.toList <:+ target.toList := by
    rcases htarget with rfl | rfl
    · exact List.suffix_refl _
    · rw [hroot]
      exact Path.suffix_text_child _ hn
  obtain ⟨above, habove⟩ := hsuffix
  have hblank := hlast '\n' (by rw [← habove, List.getLast?_append, hend]; rfl)
  exact absurd hblank (by decide)

/-- A name by itself and its path below a directory that is scanned are read alike. -/
theorem relativize_name (hw : files.WellFormed) (hs : h.scan files p [] [] = .ok i)
    {n target : String} (hn : Path.IsName n) (hback : '\\' ∉ n.toList)
    (htarget : target = n ∨ target = (i.root.child n).text) : i.root.relativize target = n := by
  rcases htarget with rfl | rfl
  · rw [Path.relativize_eq_self_iff]
    exact ⟨fun hhead => hn.2.2.2 (List.mem_of_mem_head? hhead), hback⟩
  · exact relativize_child hw hs [n] (by simpa using hn) (by simp)

/-- The vulnerabilities that a report tells of are found one by one and in their order. Where a
directory without patterns of its own is scanned as a whole, those are kept whose targets are not
always left out, and of the files right in that directory only those are with the versions of what
a project depends on. -/
theorem dependencies_stay (h : Host) (files : FileTree) (hw : files.WellFormed) (p : Path)
    (i : Inventory) (hs : h.scan files p [] [] = .ok i)
    (hown : ∀ n ∈ IgnoreFilter.ownFiles, files.at? (i.root.names ++ [n]) = none)
    (o : Output) (report : Json) (hreport : Json.parse o.stdout = .ok report)
    (x : Outcome) (he : x.error = none)
    (hread : Analyzer.trivy.read o = .ok (.findings x.findings)) :
    let told := Analyzer.Trivy.vulnerabilities report
    let stays := fun v : String × Fields Empty =>
      !i.scope.ignore.ignores (i.root.relativize v.1)
    List.Forall₂ Analyzer.Trivy.Tells told (x.findings.filter (·.isDependency)) ∧
    List.Forall₂
      (fun v g => ∃ f, Analyzer.Trivy.Tells v f ∧ g = { f with file := i.root.relativize f.file })
      (told.filter stays) ((x.localize i.root i.scope).findings.filter (·.isDependency)) ∧
    IgnoreFilter.ofLines IgnoreFilter.builtinLines = .ok i.scope.ignore ∧
    ∀ v ∈ told, ∀ n, Path.IsName n → '\\' ∉ n.toList →
      (v.1 = n ∨ v.1 = (i.root.child n).text) →
      i.root.relativize v.1 = n ∧ (stays v = true ↔ n ∉ IgnoreFilter.builtinFiles) := by
  intro told stays
  have htells := Analyzer.Trivy.read_tells hreport hread
  obtain ⟨halways, hcovers⟩ := covers_eq_of_no_files hw hs hown
  refine ⟨htells, ?_, halways, ?_⟩
  · have hkind : ∀ (f : Finding) file, { f with file }.isDependency = f.isDependency :=
      fun f file => rfl
    rw [Outcome.localize_of_no_error _ _ x he, Outcome.filter_localFindings _ _ hkind]
    have hkept := Outcome.forall₂_localFindings i.root i.scope
      (fun v f htell => htell.file) htells
    simp only [hcovers] at hkept
    exact hkept
  · intro v hv n hn hback htarget
    have hrelative := relativize_name hw hs hn hback htarget
    have hend := last_of_target hs hn htarget fun c => Analyzer.Trivy.target_last hv
    refine ⟨hrelative, ?_⟩
    show (!i.scope.ignore.ignores (i.root.relativize v.1)) = true ↔ n ∉ IgnoreFilter.builtinFiles
    rw [hrelative, Bool.not_eq_true', ← Bool.not_eq_true]
    exact not_congr (IgnoreFilter.builtin_ignores_name_iff halways hn.2.2.2 hback hend)

/-- A project with two files that tell of what it depends on. -/
def dependentTree : FileTree :=
  .directory [("repo", .directory [
    ("app.py", .file [] false),
    ("package-lock.json", .file [] false),
    ("requirements.txt", .file [] false)])]

/-- A report of one vulnerability in a target. -/
def dependentOutput (target : String) : Output where
  stdout := "\x7b\"Results\": [\x7b\"Target\": \"" ++ target ++
    "\", \"Vulnerabilities\": [\x7b\"VulnerabilityID\": \"CVE-1\"\x7d]\x7d]\x7d"

def dependentOutcome (target : String) : Outcome where
  tool := "trivy"
  findings := [{
    file := target, tag := Tag.dependency.text, rule := "CVE-1",
    message := "Vulnerable dependency: None@None has CVE-1 (None). No fix available." }]

theorem dependentTree_wellFormed : dependentTree.WellFormed := by decide

private theorem dependent_own : ∀ n ∈ IgnoreFilter.ownFiles,
    dependentTree.at? (sampleRoot.names ++ [n]) = none := by
  simp [IgnoreFilter.ownFiles, IgnoreFilter.projectFiles, sampleRoot, dependentTree,
    FileTree.at?, FileTree.entry?]

private theorem dependent_scan :
    ∃ i, sampleHost.scan dependentTree sampleRoot [] [] = .ok i ∧ i.root = sampleRoot := by
  have hroot : sampleHost.scannable dependentTree sampleRoot = .ok sampleRoot.names := by rfl
  obtain ⟨i, hs, hi, -⟩ := scan_of_leaves dependentTree_wellFormed hroot rfl (by decide) (by simp)
    (by decide) (by decide)
  exact ⟨i, hs, hi⟩

private theorem dependent_read : ∀ target ∈ ["package-lock.json", "/repo/requirements.txt"],
    ∃ report, Json.parse (dependentOutput target).stdout = .ok report ∧
      (Analyzer.Trivy.vulnerabilities report).map (·.1) = [target] ∧
      Analyzer.trivy.read (dependentOutput target) =
        .ok (.findings (dependentOutcome target).findings) := by
  have htold : ∀ target ∈ ["package-lock.json", "/repo/requirements.txt"],
      (Json.parse (dependentOutput target).stdout).toOption.map (fun report =>
        ((Analyzer.Trivy.vulnerabilities report).map (·.1),
          (Output.each (Analyzer.Trivy.entryFindings false)
            (Fields.get report.fields "Results").records).toOption)) =
        some ([target], some (dependentOutcome target).findings) := by
    decide +kernel
  intro target htarget
  obtain ⟨report, hparsed, heach⟩ := Option.map_eq_some_iff.mp (htold target htarget)
  obtain ⟨hvulnerabilities, hfound⟩ := Prod.mk.inj heach
  have hreport := toOption_eq_some.mp hparsed
  refine ⟨report, hreport, hvulnerabilities, map_eq_ok.mpr ⟨_, ?_, rfl⟩⟩
  rw [Analyzer.Trivy.read, Output.read_parsed hreport]
  exact toOption_eq_some.mp hfound

/-- What a manifest depends on is found, and stays. -/
theorem dependencies_stay_manifest :
    ∃ i report, sampleHost.scan dependentTree sampleRoot [] [] = .ok i ∧
      Json.parse (dependentOutput "/repo/requirements.txt").stdout = .ok report ∧
      (Analyzer.Trivy.vulnerabilities report).map (·.1) = ["/repo/requirements.txt"] ∧
      ∀ v ∈ Analyzer.Trivy.vulnerabilities report,
        i.scope.ignore.ignores (i.root.relativize v.1) = false := by
  obtain ⟨i, hs, hroot⟩ := dependent_scan
  obtain ⟨report, hreport, htold, hread⟩ := dependent_read "/repo/requirements.txt" (by simp)
  refine ⟨i, report, hs, hreport, htold, fun v hv => ?_⟩
  obtain ⟨-, -, -, hstays⟩ := dependencies_stay sampleHost dependentTree dependentTree_wellFormed
    sampleRoot i hs (hroot ▸ dependent_own) (dependentOutput "/repo/requirements.txt") report
    hreport (dependentOutcome "/repo/requirements.txt") rfl hread
  have htarget : v.1 = "/repo/requirements.txt" := by
    have hmem := List.mem_map_of_mem (f := Prod.fst) hv
    rw [htold] at hmem
    exact List.mem_singleton.mp hmem
  have hpath : v.1 = (i.root.child "requirements.txt").text := by
    rw [htarget, hroot]
    rfl
  obtain ⟨-, hkept⟩ := hstays v hv "requirements.txt" (by decide) (by decide) (.inr hpath)
  have hstay := hkept.mpr (by decide)
  rw [Bool.not_eq_true'] at hstay
  exact hstay

/-- What a file with versions depends on is found too, but does not stay. -/
theorem lockfile_vulnerability_dropped :
    ∃ i report, sampleHost.scan dependentTree sampleRoot [] [] = .ok i ∧
      (∀ n ∈ IgnoreFilter.ownFiles, dependentTree.at? (i.root.names ++ [n]) = none) ∧
      dependentTree.at? (i.root.names ++ ["package-lock.json"]) = some (.file [] false) ∧
      Json.parse (dependentOutput "package-lock.json").stdout = .ok report ∧
      (Analyzer.Trivy.vulnerabilities report).map (·.1) = ["package-lock.json"] ∧
      Analyzer.trivy.read (dependentOutput "package-lock.json") =
        .ok (.findings (dependentOutcome "package-lock.json").findings) ∧
      ((dependentOutcome "package-lock.json").localize i.root i.scope).findings = [] := by
  obtain ⟨i, hs, hroot⟩ := dependent_scan
  obtain ⟨report, hreport, htold, hread⟩ := dependent_read "package-lock.json" (by simp)
  have hown : ∀ n ∈ IgnoreFilter.ownFiles, dependentTree.at? (i.root.names ++ [n]) = none :=
    hroot ▸ dependent_own
  have hstands : dependentTree.at? (i.root.names ++ ["package-lock.json"]) =
      some (.file [] false) := by
    rw [hroot]
    rfl
  have hdropped : i.scope.covers (i.root.relativize "package-lock.json") = false := by
    obtain ⟨halways, hcovers⟩ := covers_eq_of_no_files dependentTree_wellFormed hs hown
    rw [(i.root.relativize_eq_self_iff _).mpr (by decide), hcovers, Bool.not_eq_false']
    exact (IgnoreFilter.builtin_ignores_name_iff halways (by decide) (by decide) (by decide)).mpr
      List.mem_cons_self
  refine ⟨i, report, hs, hown, hstands, hreport, htold, hread, ?_⟩
  rw [Outcome.localize_of_no_error _ _ _ rfl]
  exact (Outcome.localFindings_cons ..).trans (if_neg (Bool.eq_false_iff.mp hdropped))

end Host
end CodeAudit
