import CodeAudit.Outcome.Local
import CodeAudit.Proofs.Steps
import CodeAudit.Run.Schedule
namespace CodeAudit

namespace Outcome

theorem consistent_of_no_error {o : Outcome} (h : o.error = none) : o.Consistent :=
  fun hne => absurd h hne

theorem consistent_of_no_findings {o : Outcome} (h : o.findings = []) : o.Consistent := fun _ => h

theorem Consistent.localize {o : Outcome} (h : o.Consistent) (directory : Path) (scope : Scope) :
    (o.localize directory scope).Consistent := by
  unfold Outcome.localize
  split
  · exact h
  · next he => exact consistent_of_no_error (by simpa using he)

end Outcome

namespace Host
open Act Outcome
variable (h : Host) {target : Path} {o : RunOptions}

/-- What was read of an analyzer's output is either findings or an error. -/
theorem settle_consistent {base : Outcome} (he : base.error = none) (hf : base.findings = [])
    (r : Reading) : (settle base r).Consistent := by
  unfold settle
  cases r with
  | findings fs => exact consistent_of_no_error he
  | document v =>
    dsimp only
    split
    · exact consistent_of_no_error he
    · exact consistent_of_no_findings hf

theorem runTool_consistent {a : Analyzer} {config : ToolConfig} {x : Outcome} {w w' : World}
    (hr : (h.runTool a config target o).on w = (.ok x, w')) : x.Consistent := by
  obtain ⟨answer, v, -, hr⟩ := Act.bind_eq_ok.mp hr
  split at hr
  · cases hr
    exact settle_consistent rfl rfl _
  · cases hr
    exact consistent_of_no_findings rfl
  · cases hr
    exact consistent_of_no_findings rfl

theorem runInTurn_consistent {scheduled : List Scheduled} {outcomes : List Outcome} {w w' : World}
    (hr : (h.runInTurn target o scheduled).on w = (.ok outcomes, w')) :
    ∀ x ∈ outcomes, x.Consistent := by
  induction scheduled generalizing outcomes w with
  | nil =>
    cases hr
    simp
  | cons s rest ih =>
    obtain ⟨x, v, hx, hr⟩ := Act.bind_eq_ok.mp hr
    obtain ⟨others, u, ho, hr⟩ := Act.bind_eq_ok.mp hr
    cases hr
    exact List.forall_mem_cons.mpr ⟨h.runTool_consistent hx, ih ho⟩

theorem runSlots_consistent {scheduled : List Scheduled} {slots : List Nat}
    {arrivals : List (Nat × Outcome)} {w w' : World}
    (hr : (h.runSlots target o scheduled slots).on w = (.ok arrivals, w')) :
    ∀ x ∈ arrivals, x.2.Consistent := by
  induction slots generalizing arrivals w with
  | nil =>
    cases hr
    simp
  | cons i rest ih =>
    rw [runSlots] at hr
    split at hr
    · exact ih hr
    · obtain ⟨x, v, hx, hr⟩ := Act.bind_eq_ok.mp hr
      obtain ⟨others, u, ho, hr⟩ := Act.bind_eq_ok.mp hr
      cases hr
      exact List.forall_mem_cons.mpr ⟨h.runTool_consistent hx, ih ho⟩

theorem mem_deliver {α : Type} {slots : List (Option α)} {arrivals : List (Nat × α)} {a : α}
    (ha : some a ∈ deliver slots arrivals) : some a ∈ slots ∨ ∃ i, (i, a) ∈ arrivals := by
  induction arrivals generalizing slots with
  | nil => exact .inl ha
  | cons first rest ih =>
    obtain ⟨i, b⟩ := first
    rcases ih ha with hs | ⟨j, hj⟩
    · rcases List.mem_or_eq_of_mem_set hs with hs | hs
      · exact .inl hs
      · cases hs
        exact .inr ⟨i, by simp⟩
    · exact .inr ⟨j, List.mem_cons_of_mem _ hj⟩

/-- What is collected has come in. -/
theorem mem_collect {α : Type} {size : Nat} {arrivals : List (Nat × α)} {a : α}
    (ha : a ∈ collect size arrivals) : ∃ i, (i, a) ∈ arrivals := by
  obtain ⟨slot, hs, he⟩ := List.mem_filterMap.mp ha
  obtain rfl : slot = some a := he
  rcases mem_deliver hs with hs | hs
  · simp at hs
  · exact hs

/-- However many analyzers run at a time, none comes to both findings and an error. -/
theorem runTools_consistent {scheduled : List Scheduled} {jobs : Int} {outcomes : List Outcome}
    {w w' : World} (hr : (h.runTools target o scheduled jobs).on w = (.ok outcomes, w')) :
    ∀ x ∈ outcomes, x.Consistent := by
  unfold runTools at hr
  split at hr
  · exact h.runInTurn_consistent hr
  · obtain ⟨arrivals, v, ha, hr⟩ := Act.bind_eq_ok.mp hr
    cases hr
    intro x hx
    obtain ⟨i, hi⟩ := mem_collect hx
    exact h.runSlots_consistent ha (i, x) hi

end Host
end CodeAudit
