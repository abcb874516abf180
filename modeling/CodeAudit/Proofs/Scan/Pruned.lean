import CodeAudit.Proofs.Pattern.Filter
import CodeAudit.Proofs.Scan.Findings
namespace CodeAudit.Host
open FileTree Inventory Pattern

theorem pathText_append {dirs below : Place} (hd : dirs ≠ []) (hb : below ≠ []) :
    pathText (dirs ++ below) = pathText dirs ++ "/" ++ pathText below :=
  String.intercalate_append_of_ne_nil hd hb

/-- The text of names is neither empty nor a dot. -/
theorem pathText_ne {names : Place} (hn : ∀ n ∈ names, Path.IsName n) (hne : names ≠ []) :
    pathText names ≠ "" ∧ pathText names ≠ "." := by
  have hread := Path.namesOf_intercalate names hn
  constructor
  · intro h
    rw [pathText] at h
    rw [h] at hread
    exact hne hread.symm
  · intro h
    rw [pathText] at h
    rw [h] at hread
    exact hne (hread.symm.trans (by decide))

/-- What is below a directory that is left out is not scanned. -/
theorem not_mem_files_below {h : Host} {files : FileTree} {p : Path} {exclude only : List String}
    {i : Inventory} (hw : files.WellFormed) (hs : h.scan files p exclude only = .ok i)
    {dirs below : Place} (hn : ∀ n ∈ dirs ++ below, Path.IsName n) (hd : dirs ≠ [])
    (hb : below ≠ []) (hpruned : i.scope.ignore.ignores (pathText dirs ++ "/") = true) :
    pathText (dirs ++ below) ∉ i.files := by
  intro hmem
  obtain ⟨⟨entries, hroot⟩, -⟩ := scan_ok hs
  obtain ⟨place, hplace, he⟩ := (mem_files hs _).mp hmem
  have hname := isName_of_mem_sources _ _ _ hw entries hroot place hplace
  obtain rfl := pathText_injective hname hn he
  obtain ⟨above, name, hsplit, hl⟩ := (mem_sources _ _ _ hw entries hroot _).mp hplace
  have hprefix : dirs <+: above := by
    obtain ⟨more, last, rfl⟩ := (List.eq_nil_or_concat below).resolve_left hb
    rw [List.concat_eq_append, ← List.append_assoc] at hsplit
    exact ⟨more, (List.append_inj' hsplit rfl).1⟩
  have hopen := (hl.entered dirs hprefix hd).2
  rw [hpruned] at hopen
  exact Bool.noConfusion hopen

/-- Whether something below a directory that is left out is left out is for the patterns to say,
and if no bracket can stand for a slash, then one of them does. -/
theorem ignores_below_pruned {h : Host} {files : FileTree} {p : Path} {exclude only : List String}
    {i : Inventory} (hs : h.scan files p exclude only = .ok i) {dirs below : Place}
    (hn : ∀ n ∈ dirs ++ below, Path.IsName n) (hd : dirs ≠ []) (hb : below ≠ [])
    (hpruned : i.scope.ignore.ignores (pathText dirs ++ "/") = true) :
    i.scope.ignore.ignores (pathText (dirs ++ below)) =
        verdict i.scope.ignore.patterns (subject (turned (pathText (dirs ++ below)))) ∧
      ((∀ q ∈ i.scope.ignore.patterns, q.shape.hasSlashBracket = false) →
        ∃ q, LastWord i.scope.ignore.patterns (subject (turned (pathText (dirs ++ below)))) q) := by
  obtain ⟨hempty, hdot⟩ :=
    pathText_ne (fun n hm => hn n (List.mem_append_left below hm)) hd
  obtain ⟨start, hsubject, hverdict, hignores⟩ :=
    i.scope.ignore.ignores_below _ hempty hdot hpruned (pathText below)
  rw [pathText_append hd hb, hsubject]
  refine ⟨hignores, fun hbrackets => exists_lastWord ?_⟩
  obtain ⟨-, hignore, -⟩ := scan_ok hs
  obtain ⟨project, -, hlines⟩ := IgnoreFilter.ofDirectory_eq_ok.mp hignore
  obtain ⟨q, ⟨earlier, later, hsplit, hq⟩, -⟩ := verdict_iff.mp hverdict
  apply hit_below_of_ofLines (IgnoreFilter.ofLines_patterns hlines) hbrackets
  refine ⟨q, hsplit ▸ by simp, ?_⟩
  rcases hq with ⟨hq, -⟩ | ⟨hq, -⟩ <;> simp [hq]

/-- A finding in something below a directory that is left out goes exactly if the restriction does
not take it in or a pattern that is not negated has the last word on it. If no bracket can stand
for a slash, then it stays exactly if it is taken in and a negated pattern has the last word. -/
theorem finding_below_pruned (h : Host) (files : FileTree) (hw : files.WellFormed) (p : Path)
    (exclude only : List String) (i : Inventory) (hs : h.scan files p exclude only = .ok i)
    (dirs below : Place) (hn : ∀ n ∈ dirs ++ below, Path.IsName n) (hd : dirs ≠ [])
    (hb : below ≠ []) (hpruned : i.scope.ignore.ignores (pathText dirs ++ "/") = true)
    (o : Outcome) (he : o.error = none) (f : Finding) (before after : List Finding)
    (ho : o.findings = before ++ f :: after)
    (hf : f.file = pathText (dirs ++ below) ∨
      f.file = (i.root.child (pathText (dirs ++ below))).text) :
    let path := pathText (dirs ++ below)
    let decides := LastWord i.scope.ignore.patterns (subject (turned path))
    let dropped := (o.localize i.root i.scope).findings =
      ({ o with findings := before }.localize i.root i.scope).findings ++
        ({ o with findings := after }.localize i.root i.scope).findings
    path ∉ i.files ∧
    (dropped ↔ (∃ wanted, i.scope.only = some wanted ∧ wanted.includes path = false) ∨
      ∃ q, decides q ∧ q.negated = false) ∧
    ((∀ q ∈ i.scope.ignore.patterns, q.shape.hasSlashBracket = false) →
      (¬ dropped ↔ (∀ wanted, i.scope.only = some wanted → wanted.includes path = true) ∧
        ∃ q, decides q ∧ q.negated = true)) := by
  intro path decides dropped
  have hne : dirs ++ below ≠ [] := by simp [hd]
  obtain ⟨hignores, hlast⟩ := ignores_below_pruned hs hn hd hb hpruned
  have hdropped : dropped ↔ i.scope.covers path = false := by
    rw [← covers_relativize hw hs _ hn hne hf]
    exact Outcome.dropped_iff _ _ o he f before after ho
  refine ⟨not_mem_files_below hw hs hn hd hb hpruned, ?_, fun hbrackets => ?_⟩
  · rw [hdropped, Scope.covers_eq_false_iff, hignores, verdict_iff]
  · rw [hdropped, Bool.not_eq_false, Scope.covers_iff, hignores, and_comm]
    refine and_congr_right fun _ => ⟨fun hkept => ?_, ?_⟩
    · obtain ⟨q, hq⟩ := hlast hbrackets
      rw [hq.verdict_eq] at hkept
      exact ⟨q, hq, by simpa using hkept⟩
    · intro h
      obtain ⟨q, hq, hnegated⟩ := h
      rw [hq.verdict_eq, hnegated]
      rfl

/-- A finding in a file that is not scanned. -/
def sampleOutcomeBelow : Outcome where
  tool := "probe"
  findings := [{ file := "dist/keep.py", rule := "r", message := "m" }]

theorem finding_below_pruned_sample :
    ∃ i, sampleHost.scan sampleTree sampleRoot [] [] = .ok i ∧
      i.scope.ignore.ignores "dist/" = true ∧ "dist/keep.py" ∉ i.files ∧
      (sampleOutcomeBelow.localize i.root i.scope).findings ≠ [] := by
  obtain ⟨f, -, hf, -, -, hwalk, hpruned, hopen, -⟩ := sample_filter
  have hs := scan_of_filter sample_scannable hf hwalk
  have hverdict : verdict f.patterns (subject (turned "dist/keep.py")) = false := hopen
  have hdir : pathText ["dist"] ++ "/" = "dist/" := by decide
  have hpath : pathText (["dist"] ++ ["keep.py"]) = "dist/keep.py" := by decide
  obtain ⟨hnot, hdropped, -⟩ :=
    finding_below_pruned sampleHost sampleTree sampleTree_wellFormed sampleRoot [] [] _ hs
      ["dist"] ["keep.py"] (by decide) (by simp) (by simp) (hdir.symm ▸ hpruned)
      sampleOutcomeBelow rfl
      { file := "dist/keep.py", rule := "r", message := "m" } [] [] rfl (.inl hpath.symm)
  rw [hpath] at hnot hdropped
  refine ⟨_, hs, hpruned, hnot, fun hnil => ?_⟩
  rcases hdropped.mp hnil with ⟨wanted, hwanted, -⟩ | hlast
  · cases hwanted
  · have htaken : verdict f.patterns (subject (turned "dist/keep.py")) = true :=
      verdict_iff.mpr hlast
    rw [hverdict] at htaken
    cases htaken

end CodeAudit.Host
