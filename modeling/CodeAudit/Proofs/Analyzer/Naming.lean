import CodeAudit.Proofs.Analyzer.Reliance
import CodeAudit.Proofs.Analyzer.WellFormed
namespace CodeAudit

namespace Output

/-- The findings of many items stand in the files of their items, item by item. -/
theorem each_files {α : Type} {f : α → Except Fault (List Finding)} {named : α → List String}
    (h : ∀ x, Ensures (fun fs => fs.map (·.file) = named x) (f x)) (xs : List α) :
    Ensures (fun fs => fs.map (·.file) = xs.flatMap named) (each f xs) := by
  induction xs with
  | nil => exact .ok rfl
  | cons x xs ih =>
    rw [each]
    cases hx : f x with
    | error e => exact .error e
    | ok ys =>
      refine ih.map fun zs hzs => ?_
      rw [List.map_append, h x ys hx, hzs, List.flatMap_cons]

end Output

namespace Analyzer
open Output

namespace Mypy

def named (item : Fields Empty) : List String :=
  if !(item.get "severity").isText "error" then [] else [text item ["file"] "unknown"]

/-- The files that errors are printed of, without white space at their ends. -/
def files (stdout : String) : List String :=
  (recordLines (Text.splitLines (Text.trim stdout.toList))).flatMap named

theorem finding_file (item : Fields Empty) :
    Ensures (fun fs => fs.map (·.file) = named item) (finding item) := by
  rw [finding, named]
  split
  · exact .ok rfl
  · exact .after fun _ => .after fun _ => .ok rfl

theorem files_of_silent {o : Output} (h : o.silent = true) : files o.stdout = [] := by
  rw [files, (Text.trim_eq_nil_iff _).mpr h]
  rfl

theorem read_files (o : Output) :
    Ensures (fun fs => fs.map (·.file) = files o.stdout) (read o) := by
  rw [read]
  split
  · next hsilent =>
    rw [files_of_silent hsilent]
    exact .ite (.error _) (.ok rfl)
  · intro fs hfs
    obtain ⟨items, hitems, heach⟩ := bind_eq_ok.mp hfs
    rw [files, ← recordsIn_ok hitems]
    exact each_files finding_file items fs heach

end Mypy

namespace Tsc

def named (cs : List Char) : List String :=
  match report? (Text.trim cs) with
  | none => []
  | some report => [String.ofList report.file]

/-- The files that diagnostics are printed of. -/
def files (stdout : String) : List String := (Text.splitLines stdout.toList).flatMap named

theorem finding_file (cs : List Char) :
    Ensures (fun fs => fs.map (·.file) = named cs) (finding cs) := by
  rw [finding, named]
  cases report? (Text.trim cs) with
  | none => exact .ok rfl
  | some report => exact .after fun _ => .after fun _ => .ok rfl

theorem read_files (o : Output) : Ensures (fun fs => fs.map (·.file) = files o.stdout) (read o) :=
  .ite (.error _) (each_files finding_file _)

end Tsc

/-- What an analyzer reads are findings, in the files that are printed and in their order. -/
def Names (a : Analyzer) (files : String → List String) : Prop :=
  ∀ o reading, a.read o = .ok reading →
    ∃ fs, reading = .findings fs ∧ fs.map (·.file) = files o.stdout

theorem names_of_read_files {a : Analyzer} {read : Output → Except Fault (List Finding)}
    {files : String → List String} (hread : a.read = Analyzer.findings read)
    (h : ∀ o, Ensures (fun fs => fs.map (·.file) = files o.stdout) (read o)) : a.Names files := by
  intro o reading hreading
  rw [hread] at hreading
  obtain ⟨fs, hfs, rfl⟩ := map_eq_ok.mp hreading
  exact ⟨fs, rfl, h o fs hfs⟩

/-- The analyzers that report files as their programs print them, with what these print. -/
def namings : List (Analyzer × (String → List String)) := [(.mypy, Mypy.files), (.tsc, Tsc.files)]

theorem namings_names : ∀ entry ∈ namings, entry.1.Names entry.2 := by
  rw [namings, List.forall_mem_cons, List.forall_mem_singleton]
  exact ⟨names_of_read_files rfl Mypy.read_files, names_of_read_files rfl Tsc.read_files⟩

end Analyzer
end CodeAudit
