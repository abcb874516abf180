import CodeAudit.Proofs.Pattern.Refused
import CodeAudit.Proofs.Scan.Builtin
namespace CodeAudit
open Pattern

theorem IncludeFilter.ofLines?_error_iff {lines : List String} {r : Refusal} :
    ofLines? lines = .error r ↔ FirstRefused r (clean lines) := by
  rw [← ofLines_error_iff (List.Subset.refl (clean lines)), ofLines?]
  cases lines with
  | nil => exact iff_of_false (by simp) (by simp [clean, Pattern.ofLines])
  | cons line rest => simp [map_eq_error, ofLines]

theorem IgnoreFilter.ofLines_error_iff {lines : List String} {r : Refusal} :
    ofLines lines = .error r ↔ FirstRefused r (clean lines) := by
  rw [← Pattern.ofLines_error_iff (List.Subset.refl (clean lines)), ofLines, map_eq_error]

namespace IgnoreFilter

/-- What always holds is never refused, so it is the other lines that are. -/
theorem ofLines_builtin_error_iff {lines : List String} {r : Refusal} :
    ofLines (builtinLines ++ lines) = .error r ↔ FirstRefused r (clean lines) := by
  obtain ⟨f, hf⟩ := builtin_ok
  have hfine : ∀ line ∈ clean builtinLines, ∀ r, ¬ Refused line.toList r :=
    (ok_iff_of_error_iff fun _ => ofLines_error_iff).mp ⟨f, hf⟩
  have hnone : ¬ FirstRefused r (clean builtinLines) := fun h => h.not_all hfine
  rw [ofLines_error_iff, clean_append, FirstRefused, firstFails_append]
  exact (or_iff_right hnone).trans (and_iff_right hfine)

/-- Files are asked for one after the other, until one is there or the system does not say. -/
theorem firstLines_error_iff {files : FileTree} {directory : Place} {names : List String}
    {f : Fault} :
    firstLines files directory names = .error f ↔
      FirstFails (fun n => files.isFile ⟨.root, directory ++ [n]⟩ (directory ++ [n]) = .ok false)
        (fun n => files.isFile ⟨.root, directory ++ [n]⟩ (directory ++ [n]) = .error f) names := by
  induction names with
  | nil => exact iff_of_false (by simp [firstLines]) firstFails_nil
  | cons n rest ih =>
    rw [firstFails_cons, ← ih, firstLines, bind_eq_error]
    refine or_congr_right ?_
    constructor
    · intro h
      obtain ⟨b, hb, h⟩ := h
      cases b with
      | true => cases h
      | false => exact ⟨hb, h⟩
    · intro h
      exact ⟨false, h.1, h.2⟩

end IgnoreFilter

/-- A walk goes from name to name, until the system does not say of one whether it leads to a
file. -/
theorem Inventory.trouble?_eq_some_iff {ignored : String → Bool} {files : FileTree} {root : Place}
    {f : Fault} :
    trouble? ignored files root = some f ↔
      FirstFails (fun names => ∃ b, leadsToFile files root names = .ok b)
        (fun names => leadsToFile files root names = .error f) (met ignored files root) := by
  have hone {α : Type} {x : Except Fault α} : Fault.of? x = some f ↔ x = .error f := by
    cases x <;> simp [Fault.of?]
  have hnone {α : Type} {x : Except Fault α} : Fault.of? x = none ↔ ∃ a, x = .ok a := by
    cases x <;> simp [Fault.of?]
  simp only [trouble?, List.findSome?_eq_some_iff, FirstFails, hone, hnone]
  exact exists_congr fun before => exists_congr fun names => exists_congr fun after =>
    and_congr_right fun _ => and_comm

namespace Host
open Inventory

theorem faulting_eq_error {α : Type} {wording : Wording} {lines : List String}
    {x : Except Refusal α} {f : Fault} :
    faulting wording lines x = .error f ↔ ∃ r, x = .error r ∧ f = r.fault wording lines := by
  cases x with
  | ok a => simp [faulting]
  | error r => simp [faulting, eq_comm]

theorem scannable_error {h : Host} {files : FileTree} {p : Path} {f : Fault}
    (hs : h.scannable files p = .error f) : ∃ path, f = .unscannable path := by
  rw [scannable] at hs
  rcases bind_eq_error.mp hs with he | ⟨q, -, hs⟩
  · unfold expand at he
    grind
  · split at hs
    · exact ⟨_, (Except.error.inj hs).symm⟩
    · split at hs
      · cases hs
      · exact ⟨_, (Except.error.inj hs).symm⟩

variable (h : Host) (files : FileTree) (p : Path) (exclude only : List String)

/-- The patterns of a scan besides those that always hold: those asked for, those of the directory's
files, and those that the scan is restricted to. -/
def patternLines (root : Place) (project : List String) : List String :=
  exclude ++ project ++ IgnoreFilter.ownLines files root ++ only

/-- What a scan can end in besides an answer, each after what comes before it has gone well. -/
inductive Halts : Fault → Prop
  | unscannable {f : Fault} (hroot : h.scannable files p = .error f) : Halts f
  /-- The system does not say whether the directory has ignore files. -/
  | unsaid {f : Fault} {root : Place} (hroot : h.scannable files p = .ok root)
      (hfirst : FirstFails
        (fun n => files.isFile ⟨.root, root ++ [n]⟩ (root ++ [n]) = .ok false)
        (fun n => files.isFile ⟨.root, root ++ [n]⟩ (root ++ [n]) = .error f)
        IgnoreFilter.projectFiles) : Halts f
  /-- A pattern is refused that would leave something out. -/
  | refused {root : Place} {project : List String} {r : Refusal}
      (hroot : h.scannable files p = .ok root)
      (hproject : IgnoreFilter.projectLines files root = .ok project)
      (hr : FirstRefused r (clean (patternLines files exclude [] root project))) :
      Halts (r.fault h.wording
        (IgnoreFilter.builtinLines ++ patternLines files exclude [] root project))
  /-- A pattern is refused that the scan is restricted to. -/
  | unwanted {root : Place} {ignore : IgnoreFilter} {r : Refusal}
      (hroot : h.scannable files p = .ok root)
      (hignore : IgnoreFilter.ofDirectory h.wording files root exclude = .ok ignore)
      (hr : FirstRefused r (clean only)) : Halts (r.fault h.wording only)
  /-- The system does not say of a name that the walk meets whether it leads to a file. -/
  | stuck {f : Fault} {root : Place} {ignore : IgnoreFilter}
      (hroot : h.scannable files p = .ok root)
      (hignore : IgnoreFilter.ofDirectory h.wording files root exclude = .ok ignore)
      (honly : ∀ line ∈ clean only, ∀ r, ¬ Refused line.toList r)
      (hfirst : FirstFails (fun names => ∃ b, leadsToFile files root names = .ok b)
        (fun names => leadsToFile files root names = .error f) (met ignore.ignores files root)) :
      Halts f

variable {h files p exclude only} {root : Place} {ignore : IgnoreFilter}

theorem lines_eq_patternLines (project : List String) :
    IgnoreFilter.builtinLines ++ exclude ++ project ++ IgnoreFilter.ownLines files root =
      IgnoreFilter.builtinLines ++ patternLines files exclude [] root project := by
  simp only [patternLines, List.append_assoc, List.append_nil]

theorem ofDirectory_error_iff {f : Fault} :
    IgnoreFilter.ofDirectory h.wording files root exclude = .error f ↔
      IgnoreFilter.projectLines files root = .error f ∨
        ∃ project r, IgnoreFilter.projectLines files root = .ok project ∧
          FirstRefused r (clean (patternLines files exclude [] root project)) ∧
          f = r.fault h.wording
            (IgnoreFilter.builtinLines ++ patternLines files exclude [] root project) := by
  rw [IgnoreFilter.ofDirectory, IgnoreFilter.directoryLines, bind_eq_error]
  constructor
  · intro hfault
    rcases hfault with hl | ⟨lines, hl, hf⟩
    · rcases bind_eq_error.mp hl with hproject | ⟨project, -, hall⟩
      · exact .inl hproject
      · cases hall
    · obtain ⟨project, hproject, hall⟩ := bind_eq_ok.mp hl
      cases hall
      obtain ⟨r, hr, rfl⟩ := faulting_eq_error.mp hf
      rw [lines_eq_patternLines] at hr ⊢
      exact .inr ⟨project, r, hproject, IgnoreFilter.ofLines_builtin_error_iff.mp hr, rfl⟩
  · intro hfault
    rcases hfault with hproject | ⟨project, r, hproject, hr, rfl⟩
    · exact .inl (bind_eq_error.mpr (.inl hproject))
    · refine .inr ⟨_, bind_eq_ok.mpr ⟨project, hproject, rfl⟩, ?_⟩
      rw [lines_eq_patternLines]
      exact faulting_eq_error.mpr ⟨r, IgnoreFilter.ofLines_builtin_error_iff.mpr hr, rfl⟩

theorem ofDirectory_ok_iff :
    (∃ ignore, IgnoreFilter.ofDirectory h.wording files root exclude = .ok ignore) ↔
      ∃ project, IgnoreFilter.projectLines files root = .ok project ∧
        ∀ line ∈ clean (patternLines files exclude [] root project),
          ∀ r, ¬ Refused line.toList r := by
  simp only [IgnoreFilter.ofDirectory_eq_ok, lines_eq_patternLines]
  rw [exists_comm]
  refine exists_congr fun project => ?_
  rw [exists_and_left]
  exact and_congr_right fun _ =>
    ok_iff_of_error_iff fun _ => IgnoreFilter.ofLines_builtin_error_iff

theorem scan_error_iff {f : Fault} :
    h.scan files p exclude only = .error f ↔ h.Halts files p exclude only f := by
  rw [scan]
  constructor
  · intro hs
    rcases bind_eq_error.mp hs with hroot | ⟨root, hroot, hs⟩
    · exact .unscannable hroot
    rcases bind_eq_error.mp hs with hignore | ⟨ignore, hignore, hs⟩
    · rcases ofDirectory_error_iff.mp hignore with hproject | ⟨project, r, hproject, hr, rfl⟩
      · exact .unsaid hroot (IgnoreFilter.firstLines_error_iff.mp hproject)
      · exact .refused hroot hproject hr
    rcases bind_eq_error.mp hs with honly | ⟨wanted, honly, hs⟩
    · obtain ⟨r, hr, rfl⟩ := faulting_eq_error.mp honly
      exact .unwanted hroot hignore (IncludeFilter.ofLines?_error_iff.mp hr)
    have hfine := (ok_iff_of_error_iff fun _ => IncludeFilter.ofLines?_error_iff).mp
      ⟨wanted, faulting_eq_ok.mp honly⟩
    cases hwalk : trouble? ignore.ignores files root with
    | none =>
      rw [hwalk] at hs
      cases hs
    | some f' =>
      rw [hwalk] at hs
      cases hs
      exact .stuck hroot hignore hfine (trouble?_eq_some_iff.mp hwalk)
  · intro hs
    cases hs with
    | unscannable hroot => exact bind_eq_error.mpr (.inl hroot)
    | unsaid hroot hfirst =>
      refine bind_eq_error.mpr (.inr ⟨_, hroot, bind_eq_error.mpr (.inl ?_)⟩)
      exact ofDirectory_error_iff.mpr (.inl (IgnoreFilter.firstLines_error_iff.mpr hfirst))
    | refused hroot hproject hr =>
      refine bind_eq_error.mpr (.inr ⟨_, hroot, bind_eq_error.mpr (.inl ?_)⟩)
      exact ofDirectory_error_iff.mpr (.inr ⟨_, _, hproject, hr, rfl⟩)
    | unwanted hroot hignore hr =>
      refine bind_eq_error.mpr (.inr ⟨_, hroot, bind_eq_error.mpr (.inr ⟨_, hignore, ?_⟩)⟩)
      refine bind_eq_error.mpr (.inl ?_)
      exact faulting_eq_error.mpr ⟨_, IncludeFilter.ofLines?_error_iff.mpr hr, rfl⟩
    | stuck hroot hignore honly hfirst =>
      obtain ⟨wanted, hwanted⟩ :=
        (ok_iff_of_error_iff fun _ => IncludeFilter.ofLines?_error_iff).mpr honly
      refine bind_eq_error.mpr (.inr ⟨_, hroot, bind_eq_error.mpr (.inr ⟨_, hignore, ?_⟩)⟩)
      refine bind_eq_error.mpr (.inr ⟨wanted, faulting_eq_ok.mpr hwanted, ?_⟩)
      rw [trouble?_eq_some_iff.mpr hfirst]
      rfl

theorem Halts.scannable_eq {f : Fault} (hf : h.Halts files p exclude only f)
    (hpath : ∃ path, f = .unscannable path) : h.scannable files p = .error f := by
  obtain ⟨path, hpath⟩ := hpath
  cases hf with
  | unscannable hroot => exact hroot
  | unsaid hroot hfirst =>
    obtain ⟨_, _, _, -, -, hunsaid⟩ := hfirst
    obtain ⟨e, -, he⟩ := FileTree.isFile_error hunsaid
    cases hpath.symm.trans he
  | @refused root project r hroot hproject hr => cases r <;> cases hpath
  | @unwanted root ignore r hroot hignore hr => cases r <;> cases hpath
  | stuck hroot hignore honly hfirst =>
    obtain ⟨_, _, _, -, -, hunsaid⟩ := hfirst
    obtain ⟨e, -, he⟩ := FileTree.isFile_error hunsaid
    cases hpath.symm.trans he

/-- A directory can be scanned exactly if nothing stops the scan of it. -/
theorem scan_ok_iff (hroot : h.scannable files p = .ok root) :
    (∃ i, h.scan files p exclude only = .ok i) ↔
      ∃ project, IgnoreFilter.projectLines files root = .ok project ∧
        (∀ line ∈ clean (patternLines files exclude only root project),
          ∀ r, ¬ Refused line.toList r) ∧
        ∀ ignore, IgnoreFilter.ofDirectory h.wording files root exclude = .ok ignore →
          ∀ names ∈ met ignore.ignores files root,
            ∃ b, leadsToFile files root names = .ok b := by
  have hsplit (project : List String) :
      clean (patternLines files exclude only root project) =
        clean (patternLines files exclude [] root project) ++ clean only := by
    rw [patternLines, clean_append, patternLines, List.append_nil]
  have hwanted : (∃ wanted, IncludeFilter.ofLines? only = .ok wanted) ↔
      ∀ line ∈ clean only, ∀ r, ¬ Refused line.toList r :=
    ok_iff_of_error_iff fun _ => IncludeFilter.ofLines?_error_iff
  simp only [hsplit, List.forall_mem_append]
  constructor
  · intro hs
    obtain ⟨i, hs⟩ := hs
    obtain ⟨-, hignore, honly, -, hwalk⟩ := scan_ok hs
    have hnames := Except.ok.inj ((scannable_of_scan hs).symm.trans hroot)
    rw [hnames] at hignore hwalk
    obtain ⟨project, hproject, hfine⟩ := ofDirectory_ok_iff.mp ⟨_, hignore⟩
    refine ⟨project, hproject, ⟨hfine, hwanted.mp ⟨_, honly⟩⟩, fun ignore hi => ?_⟩
    obtain rfl := Except.ok.inj (hignore.symm.trans hi)
    exact trouble?_eq_none_iff.mp hwalk
  · intro hfine
    obtain ⟨project, hproject, ⟨hfine, honly⟩, hwalk⟩ := hfine
    obtain ⟨ignore, hignore⟩ := ofDirectory_ok_iff.mpr ⟨project, hproject, hfine⟩
    obtain ⟨wanted, honly⟩ := hwanted.mpr honly
    exact ⟨_, scan_eq_ok.mpr ⟨root, ignore, wanted, hroot, hignore, honly,
      trouble?_eq_none_iff.mpr (hwalk ignore hignore), rfl⟩⟩

/-- A scan comes to an answer, or tells that its directory cannot be scanned, exactly if none of the
patterns for the directory is refused and the system says of all names that are asked for whether
they lead to files: the first that goes wrong ends the scan with a fault of another kind. -/
theorem scan_refused (h : Host) (files : FileTree) (p : Path) (exclude only : List String) :
    (∀ f, h.scan files p exclude only = .error f ↔ h.Halts files p exclude only f) ∧
    (∀ f, h.scannable files p = .error f → ∃ path, f = .unscannable path) ∧
    (((∃ i, h.scan files p exclude only = .ok i) ∨
        ∃ path, h.scan files p exclude only = .error (.unscannable path)) ↔
      ∀ root, h.scannable files p = .ok root →
        ∃ project, IgnoreFilter.projectLines files root = .ok project ∧
          (∀ line ∈ clean (patternLines files exclude only root project),
            ∀ r, ¬ Refused line.toList r) ∧
          ∀ ignore, IgnoreFilter.ofDirectory h.wording files root exclude = .ok ignore →
            ∀ names ∈ met ignore.ignores files root,
              ∃ b, leadsToFile files root names = .ok b) := by
  refine ⟨fun f => scan_error_iff, fun f => scannable_error, ?_⟩
  cases hroot : h.scannable files p with
  | error f =>
    obtain ⟨path, rfl⟩ := scannable_error hroot
    exact iff_of_true (.inr ⟨path, scan_error_iff.mpr (.unscannable hroot)⟩) (by simp)
  | ok root =>
    have hnone : ¬ ∃ path, h.scan files p exclude only = .error (.unscannable path) := by
      intro hs
      obtain ⟨path, hs⟩ := hs
      cases hroot.symm.trans ((scan_error_iff.mp hs).scannable_eq ⟨path, rfl⟩)
    rw [or_iff_left hnone, scan_ok_iff hroot]
    simp

/-- A directory with a pattern for a name that ends in a blank, which is escaped. -/
def blankTree : FileTree :=
  .directory [("repo", .directory [
    ("app.py", .file [] false),
    (".gitignore", .file "cache\\ \n".toUTF8.data.toList false)])]

theorem scan_refused_escaped_blank :
    Refused "cache\\".toList .malformed ∧
      sampleHost.scan blankTree sampleRoot [] [] = .error (.badPattern "cache\\") ∧
      ¬ ((∃ i, sampleHost.scan blankTree sampleRoot [] [] = .ok i) ∨
        ∃ path, sampleHost.scan blankTree sampleRoot [] [] = .error (.unscannable path)) := by
  have hlast : "cache\\".toList.getLast? = some '\\' := by decide
  have hblank : ∀ c, "cache\\".toList.getLast? = some c → Text.isBlank c = false := by
    intro c hc
    cases hlast.symm.trans hc
    decide
  have hrefused : Refused "cache\\".toList .malformed :=
    (ofLine_error_iff (by decide) (by decide) hblank).mp rfl
  have hroot : sampleHost.scannable blankTree sampleRoot = .ok sampleRoot.names := by rfl
  have hread : (IgnoreFilter.projectLines blankTree sampleRoot.names).toOption = some ["cache\\"] ∧
      clean (patternLines blankTree [] [] sampleRoot.names ["cache\\"]) = ["cache\\"] ∧
      refusedLine (IgnoreFilter.builtinLines ++
        patternLines blankTree [] [] sampleRoot.names ["cache\\"]) = "cache\\" := by
    decide +kernel
  obtain ⟨hproject, hlines, hline⟩ := hread
  replace hproject := toOption_eq_some.mp hproject
  obtain ⟨hfault, -, hend⟩ := scan_refused sampleHost blankTree sampleRoot [] []
  refine ⟨hrefused, ?_, ?_⟩
  · have hfirst : FirstRefused .malformed
        (clean (patternLines blankTree [] [] sampleRoot.names ["cache\\"])) := by
      rw [hlines]
      exact ⟨[], _, [], rfl, by simp, hrefused⟩
    have hhalts : sampleHost.Halts blankTree sampleRoot [] [] _ :=
      .refused hroot hproject hfirst
    rw [Refusal.fault, hline] at hhalts
    exact (hfault _).mpr hhalts
  · intro h
    obtain ⟨project, hp, hfine, -⟩ := hend.mp h _ hroot
    obtain rfl := Except.ok.inj (hproject.symm.trans hp)
    exact hfine "cache\\" (by simp [hlines]) .malformed hrefused

end Host
end CodeAudit
