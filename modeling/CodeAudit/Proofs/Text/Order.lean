import CodeAudit.Text.Order
namespace CodeAudit.Text

/-- Strictly before in the order of code points. -/
def Precedes (cs ds : List Char) : Prop :=
  List.Lex (fun m n : Nat => m < n) (cs.map Char.toNat) (ds.map Char.toNat)

theorem atMost_trans (cs ds es : List Char) (h : atMost cs ds = true)
    (h' : atMost ds es = true) : atMost cs es = true := by
  induction cs generalizing ds es with
  | nil => simp [atMost]
  | cons c cs ih =>
    cases ds with
    | nil => simp [atMost] at h
    | cons d ds =>
      cases es with
      | nil => simp [atMost] at h'
      | cons e es =>
        simp only [atMost, Bool.or_eq_true, Bool.and_eq_true, decide_eq_true_eq,
          beq_iff_eq] at h h' ⊢
        rcases h with h | ⟨rfl, h⟩
        · rcases h' with h' | ⟨rfl, -⟩
          · exact .inl (Nat.lt_trans h h')
          · exact .inl h
        · rcases h' with h' | ⟨rfl, h'⟩
          · exact .inl h'
          · exact .inr ⟨rfl, ih ds es h h'⟩

theorem atMost_total (cs ds : List Char) : atMost cs ds = true ∨ atMost ds cs = true := by
  induction cs generalizing ds with
  | nil => simp [atMost]
  | cons c cs ih =>
    cases ds with
    | nil => simp [atMost]
    | cons d ds =>
      simp only [atMost, Bool.or_eq_true, Bool.and_eq_true, decide_eq_true_eq, beq_iff_eq]
      rcases Nat.lt_trichotomy c.toNat d.toNat with hlt | heq | hgt
      · exact .inl (.inl hlt)
      · obtain rfl := Char.toNat_inj.mp heq
        rcases ih ds with h | h
        · exact .inl (.inr ⟨rfl, h⟩)
        · exact .inr (.inr ⟨rfl, h⟩)
      · exact .inr (.inl hgt)

theorem atMost_antisymm {cs ds : List Char} (h : atMost cs ds = true) (h' : atMost ds cs = true) :
    cs = ds := by
  induction cs generalizing ds with
  | nil =>
    cases ds with
    | nil => rfl
    | cons d ds => simp [atMost] at h'
  | cons c cs ih =>
    cases ds with
    | nil => simp [atMost] at h
    | cons d ds =>
      simp only [atMost, Bool.or_eq_true, Bool.and_eq_true, decide_eq_true_eq, beq_iff_eq] at h h'
      rcases h with h | ⟨rfl, h⟩
      · rcases h' with h' | ⟨rfl, -⟩
        · exact absurd h' (Nat.lt_asymm h)
        · exact absurd h (Nat.lt_irrefl _)
      · rcases h' with h' | ⟨-, h'⟩
        · exact absurd h' (Nat.lt_irrefl _)
        · rw [ih h h']

theorem precedes_of_atMost {cs ds : List Char} (h : atMost cs ds = true) (hne : cs ≠ ds) :
    Precedes cs ds := by
  induction cs generalizing ds with
  | nil =>
    cases ds with
    | nil => exact absurd rfl hne
    | cons d ds => exact .nil
  | cons c cs ih =>
    cases ds with
    | nil => simp [atMost] at h
    | cons d ds =>
      simp only [atMost, Bool.or_eq_true, Bool.and_eq_true, decide_eq_true_eq, beq_iff_eq] at h
      rcases h with h | ⟨rfl, h⟩
      · exact .rel h
      · exact .cons (ih h fun hsame => hne (hsame ▸ rfl))

end CodeAudit.Text
