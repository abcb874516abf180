import CodeAudit.Analyzer.Tsc
import CodeAudit.Analyzer.Vulture
namespace CodeAudit

namespace Diagnostic

/-- A run of decimal digits, at least one. -/
def Number (cs : List Char) : Prop := cs ≠ [] ∧ ∀ c ∈ cs, Text.isDecimal c = true

theorem number_of_digits {cs ds rest : List Char} (h : digits? cs = some (ds, rest)) :
    Number ds := by
  rw [digits?] at h
  split at h
  · cases h
  · next hne =>
    cases h
    constructor
    · intro hnil
      exact hne (by simp [hnil])
    · exact List.all_eq_true.mp List.all_takeWhile

theorem exists_of_shortest {α : Type} {form : List Char → Option α} {cs first : List Char} {a : α}
    (h : shortest form cs = some (first, a)) : ∃ rest, form rest = some a := by
  induction cs generalizing first with
  | nil => cases h
  | cons c cs ih =>
    rw [shortest] at h
    split at h
    · next hform =>
      cases h
      exact ⟨cs, hform⟩
    · obtain ⟨⟨first', a'⟩, hshortest, heq⟩ := Option.map_eq_some_iff.mp h
      cases heq
      exact ih hshortest

end Diagnostic

namespace Analyzer
open Diagnostic

theorem Vulture.line_of_report {cs : List Char} {report : Report} (h : report? cs = some report) :
    Number report.line := by
  obtain ⟨⟨file, line, message, confidence⟩, hshortest, rfl⟩ := Option.map_eq_some_iff.mp h
  obtain ⟨rest, htail⟩ := exists_of_shortest hshortest
  simp only [tail?, Option.bind_eq_bind, Option.bind_eq_some_iff] at htail
  obtain ⟨_, -, ⟨_, _⟩, hline, _, -, ⟨_, _⟩, -, hfound⟩ := htail
  cases hfound
  exact number_of_digits hline

theorem Tsc.of_report {cs : List Char} {report : Report} (h : report? cs = some report) :
    Number report.line ∧ Number report.col ∧ report.code ≠ [] := by
  obtain ⟨⟨file, form⟩, hshortest, rfl⟩ := Option.map_eq_some_iff.mp h
  obtain ⟨rest, htail⟩ := exists_of_shortest hshortest
  simp only [tail?, position?, Option.bind_eq_bind, Option.bind_eq_some_iff] at htail
  obtain ⟨⟨_, _, _⟩, hposition, _, -, ⟨_, _⟩, -, _, -, _, -, ⟨_, _⟩, -, _, -, _, -, hfound⟩ := htail
  obtain ⟨_, -, ⟨_, _⟩, hline, _, -, ⟨_, _⟩, hcol, _, -, hplace⟩ := hposition
  cases hplace
  cases hfound
  exact ⟨number_of_digits hline, number_of_digits hcol, List.cons_ne_nil _ _⟩

end Analyzer
end CodeAudit
