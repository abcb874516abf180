import CodeAudit.Proofs.Steps
import CodeAudit.Schema.Rule
namespace CodeAudit.Schema

variable {α β μ : Type}

theorem also_eq_ok {f : Checked (α → β)} {x : Checked α} {b : β} :
    f.also x = .ok b ↔ ∃ g a, f = .ok g ∧ x = .ok a ∧ g a = b := by
  cases f <;> cases x <;> simp [Checked.also]

theorem under_eq_ok {step : Step} {x : Checked α} {a : α} : x.under step = .ok a ↔ x = .ok a := by
  cases x <;> simp [Checked.under]

theorem positive_above {v : Data μ} {x : Double} (h : positive v = .ok x) :
    Double.zero.lt x = true := by
  obtain ⟨y, -, hy⟩ := bind_eq_ok.mp h
  split at hy
  · next hlt =>
    cases hy
    exact hlt
  · cases hy

theorem integerFrom_atLeast {bound n : Int} {v : Data μ} (h : integerFrom bound v = .ok n) :
    bound ≤ n := by
  obtain ⟨m, -, hm⟩ := bind_eq_ok.mp h
  split at hm
  · cases hm
  · next hlt =>
    cases hm
    exact Int.not_lt.mp hlt

/-- The items that are texts. -/
def textItems (items : List (Data μ)) : List String :=
  items.filterMap fun
    | .text s => some s
    | _ => none

theorem itemsFrom_text {items : List (Data μ)} {index : Nat} {texts : List String}
    (h : itemsFrom text index items = .ok texts) : texts = textItems items := by
  induction items generalizing index texts with
  | nil =>
    cases h
    rfl
  | cons v rest ih =>
    obtain ⟨_, more, hfirst, hrest, rfl⟩ := also_eq_ok.mp h
    obtain ⟨s, hs, rfl⟩ := map_eq_ok.mp hfirst
    rw [ih hrest]
    cases v with
    | text t =>
      cases under_eq_ok.mp hs
      rfl
    | _ => cases under_eq_ok.mp hs

theorem listOf_texts (texts : List String) :
    listOf (μ := μ) text (.list (texts.map .text)) = .ok texts := by
  have hitems (index : Nat) :
      itemsFrom (μ := μ) text index (texts.map .text) = .ok texts := by
    induction texts generalizing index with
    | nil => rfl
    | cons s texts ih =>
      rw [List.map_cons, itemsFrom, ih]
      rfl
  exact hitems 0

end CodeAudit.Schema
