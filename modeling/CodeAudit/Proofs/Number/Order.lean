import CodeAudit.Number.Double
import Mathlib.Data.Int.ConditionallyCompleteOrder
import Mathlib.Order.ConditionallyCompleteLattice.Basic
namespace CodeAudit.Double

/-- Where a number stands among the integers with two ends. -/
def value : Double → WithBot (WithTop Int)
  | nan => ⊥
  | infinite true => ⊥
  | infinite false => ⊤
  | finite s m p => ((units s m p : WithTop Int) : WithBot (WithTop Int))

theorem le_iff {x y : Double} : x.le y = true ↔ x ≠ nan ∧ y ≠ nan ∧ x.value ≤ y.value := by
  rcases x with _ | (_ | _) | ⟨s, m, p⟩ <;> rcases y with _ | (_ | _) | ⟨t, n, q⟩ <;>
    simp [le, value]

theorem lt_iff {x y : Double} : x.lt y = true ↔ x ≠ nan ∧ y ≠ nan ∧ x.value < y.value := by
  rw [lt, Bool.and_eq_true, le_iff, Bool.not_eq_true', ← Bool.not_eq_true, le_iff]
  constructor
  · intro h
    obtain ⟨⟨hx, hy, -⟩, hnot⟩ := h
    exact ⟨hx, hy, not_le.mp fun hle => hnot ⟨hy, hx, hle⟩⟩
  · intro h
    obtain ⟨hx, hy, hlt⟩ := h
    exact ⟨⟨hx, hy, hlt.le⟩, fun hle => absurd hle.2.2 (not_le.mpr hlt)⟩

theorem lt_irrefl (x : Double) : x.lt x = false := by
  rw [← Bool.not_eq_true, lt_iff]
  exact fun h => h.2.2.false

/-- What passes the later of two numbers passes both. -/
theorem max_lt_iff {x y z : Double} (hx : x ≠ nan) (hy : y ≠ nan) :
    (if x.lt y then y else x).lt z = true ↔ x.lt z = true ∧ y.lt z = true := by
  by_cases h : x.lt y = true
  · rw [if_pos h]
    simp only [lt_iff] at h ⊢
    refine ⟨fun hz => ⟨⟨hx, hz.2.1, h.2.2.trans hz.2.2⟩, hz⟩, And.right⟩
  · rw [if_neg h]
    simp only [lt_iff, not_and, not_lt] at h ⊢
    refine ⟨fun hz => ⟨hz, hy, hz.2.1, (h hx hy).trans_lt hz.2.2⟩, And.left⟩

end CodeAudit.Double
