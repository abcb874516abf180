import CodeAudit.Proofs.Outcome.Local
import CodeAudit.Proofs.Path.Relative
import CodeAudit.Proofs.Scan.Inventory
namespace CodeAudit.Host
open FileTree Inventory

/-- A file that is scanned counts. -/
theorem covers_of_mem_files {h : Host} {files : FileTree} {p : Path} {exclude only : List String}
    {i : Inventory} (hw : files.WellFormed) (hs : h.scan files p exclude only = .ok i)
    {path : String} (hp : path ∈ i.files) : i.scope.covers path = true := by
  obtain ⟨⟨entries, hd⟩, -⟩ := scan_ok hs
  obtain ⟨place, hplace, rfl⟩ := (mem_files hs path).mp hp
  obtain ⟨dirs, name, rfl, hl⟩ := (mem_sources _ _ _ hw entries hd place).mp hplace
  exact (Scope.covers_iff _ _).mpr ⟨hl.notIgnored, hl.included⟩

/-- Names are read as they stand where what holds them is scanned, be it from the root on. -/
theorem relativize_child {h : Host} {files : FileTree} {p : Path} {exclude only : List String}
    {i : Inventory} (hw : files.WellFormed) (hs : h.scan files p exclude only = .ok i)
    (names : Place) (hn : ∀ n ∈ names, Path.IsName n) (hne : names ≠ []) :
    i.root.relativize (i.root.child (pathText names)).text = pathText names := by
  obtain ⟨⟨entries, hd⟩, -, -, hi, -⟩ := scan_ok hs
  have hroot : i.root = ⟨.root, i.root.names⟩ := congrArg Inventory.root hi
  rw [hroot, pathText, Path.child_intercalate _ _ hn]
  exact Path.relativize_below _ _ (hw.at? hd).2 hn hne

theorem relativize_pathText (directory : Path) (names : Place)
    (hn : ∀ n ∈ names, Path.IsName n) :
    directory.relativize (pathText names) = String.ofList (Pattern.turned (pathText names)) :=
  Path.relativize_of_relative _ _ (Path.head_intercalate_ne_slash names hn)

/-- Whether a file counts does not depend on where its name starts. -/
theorem covers_relativize {h : Host} {files : FileTree} {p : Path} {exclude only : List String}
    {i : Inventory} (hw : files.WellFormed) (hs : h.scan files p exclude only = .ok i)
    (names : Place) (hn : ∀ n ∈ names, Path.IsName n) (hne : names ≠ []) {file : String}
    (hf : file = pathText names ∨ file = (i.root.child (pathText names)).text) :
    i.scope.covers (i.root.relativize file) = i.scope.covers (pathText names) := by
  rcases hf with rfl | rfl
  · rw [relativize_pathText _ _ hn, Scope.covers_turned]
  · rw [relativize_child hw hs _ hn hne]

theorem ofList_turned {path : String} (hp : '\\' ∉ path.toList) :
    String.ofList (Pattern.turned path) = path := by
  rw [Pattern.turned, Path.map_turn_eq_self hp, String.ofList_toList]

/-- A finding in a scanned file stays, between what stays of those around it. -/
theorem finding_on_scanned_stays (h : Host) (files : FileTree) (hw : files.WellFormed) (p : Path)
    (exclude only : List String) (i : Inventory) (hs : h.scan files p exclude only = .ok i)
    (path : String) (hp : path ∈ i.files) (o : Outcome) (he : o.error = none) (f : Finding)
    (before after : List Finding) (ho : o.findings = before ++ f :: after)
    (hf : f.file = path ∨ f.file = (i.root.child path).text) :
    ∃ file, ('\\' ∉ path.toList → file = path) ∧
      (o.localize i.root i.scope).findings =
        ({ o with findings := before }.localize i.root i.scope).findings ++
          { f with file } :: ({ o with findings := after }.localize i.root i.scope).findings := by
  have hcovers := covers_of_mem_files hw hs hp
  obtain ⟨⟨entries, hd⟩, -⟩ := scan_ok hs
  obtain ⟨place, hplace, rfl⟩ := (mem_files hs path).mp hp
  have hn := isName_of_mem_sources _ _ _ hw entries hd place hplace
  have hne : place ≠ [] := by
    obtain ⟨dirs, name, rfl, -⟩ := (mem_sources _ _ _ hw entries hd place).mp hplace
    simp
  refine ⟨i.root.relativize f.file, fun hslash => ?_, ?_⟩
  · rcases hf with hf | hf
    · rw [hf, relativize_pathText _ _ hn, ofList_turned hslash]
    · rw [hf, relativize_child hw hs _ hn hne]
  · rw [Outcome.findings_localize_split _ _ o he f before after ho,
      if_pos ((covers_relativize hw hs _ hn hne hf).trans hcovers)]
    simp

/-- Findings in a file that is left out, in one named from the root on, and in one named from the
scanned directory on. -/
def sampleOutcome : Outcome where
  tool := "probe"
  findings :=
    [{ file := "vendor/lib.py", rule := "r1", message := "m1" },
     { file := "/repo/src/b.TS", rule := "r2", message := "m2" },
     { file := "app.py", rule := "r3", message := "m3" }]

theorem finding_on_scanned_stays_sample :
    ∃ i, sampleHost.scan sampleTree sampleRoot [] [] = .ok i ∧ "src/b.TS" ∈ i.files ∧
      { file := "src/b.TS", rule := "r2", message := "m2" } ∈
        (sampleOutcome.localize i.root i.scope).findings := by
  obtain ⟨i, hs, hr, hf⟩ := sample_scan
  have hp : "src/b.TS" ∈ i.files := (hf _).mpr (by decide)
  obtain ⟨file, hfile, hfindings⟩ :=
    finding_on_scanned_stays sampleHost sampleTree sampleTree_wellFormed sampleRoot [] [] i hs
      "src/b.TS" hp sampleOutcome rfl { file := "/repo/src/b.TS", rule := "r2", message := "m2" }
      [{ file := "vendor/lib.py", rule := "r1", message := "m1" }]
      [{ file := "app.py", rule := "r3", message := "m3" }] rfl
      (.inr (by rw [hr]; decide))
  refine ⟨i, hs, hp, ?_⟩
  rw [hfindings, hfile (by decide)]
  simp

end CodeAudit.Host
