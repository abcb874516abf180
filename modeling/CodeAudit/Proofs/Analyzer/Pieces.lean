import CodeAudit.Proofs.Analyzer.Diagnostic
import CodeAudit.Proofs.Text.Numeral
namespace CodeAudit.Diagnostic

variable {α : Type} {form : List Char → Option α} {cs first rest : List Char} {a : α}

/-- White space, at least one character. -/
def Gap (cs : List Char) : Prop := cs ≠ [] ∧ cs.all Text.isBlank = true

theorem after?_eq_some_iff {start : List Char} :
    after? start cs = some rest ↔ cs = start ++ rest := by
  rw [after?]
  constructor
  · intro h
    split at h
    · next hprefix =>
      cases h
      obtain ⟨rest, rfl⟩ := List.isPrefixOf_iff_prefix.mp hprefix
      rw [List.drop_left]
    · cases h
  · rintro rfl
    rw [if_pos (List.isPrefixOf_iff_prefix.mpr (List.prefix_append start rest)), List.drop_left]

theorem digits?_append {ds : List Char} (hds : Number ds) (rest : List Char)
    (hrest : ∀ c ∈ rest.head?, Text.isDecimal c = false) :
    digits? (ds ++ rest) = some (ds, rest) := by
  have hdrop : rest.dropWhile Text.isDecimal = rest ∧ rest.takeWhile Text.isDecimal = [] := by
    cases rest with
    | nil => exact ⟨rfl, rfl⟩
    | cons c rest => simp [hrest c rfl]
  rw [digits?, List.takeWhile_append_of_pos hds.2, List.dropWhile_append_of_pos hds.2, hdrop.1,
    hdrop.2, List.append_nil, if_neg (by simpa using hds.1)]

theorem append_of_digits {ds : List Char} (h : digits? cs = some (ds, rest)) :
    cs = ds ++ rest ∧ Number ds := by
  refine ⟨?_, number_of_digits h⟩
  rw [digits?] at h
  split at h
  · cases h
  · cases h
    exact List.takeWhile_append_dropWhile.symm

theorem afterBlank?_space (hrest : ∀ c ∈ rest.head?, Text.isBlank c = false) :
    afterBlank? (' ' :: rest) = some rest := by
  have hdrop : rest.dropWhile Text.isBlank = rest := by
    cases rest with
    | nil => rfl
    | cons c rest => simp [hrest c rfl]
  rw [afterBlank?, if_pos (by rfl), List.dropWhile_cons_of_pos (by decide), hdrop]

theorem gap_of_afterBlank (h : afterBlank? cs = some rest) : ∃ gap, Gap gap ∧ cs = gap ++ rest := by
  rw [afterBlank?] at h
  split at h
  · next hhead =>
    cases h
    refine ⟨cs.takeWhile Text.isBlank, ⟨?_, List.all_takeWhile⟩,
      List.takeWhile_append_dropWhile.symm⟩
    intro hnone
    cases cs with
    | nil => cases hhead
    | cons c cs => simp_all
  · cases h

theorem blanksThen_eq_none (hcs : ∀ c ∈ cs.head?, Text.isBlank c = false) :
    blanksThen form cs = none := by
  cases cs with
  | nil => rfl
  | cons c cs => rw [blanksThen, hcs c rfl, if_neg Bool.false_ne_true]

theorem blanksThen_space (hrest : ∀ c ∈ rest.head?, Text.isBlank c = false) :
    blanksThen form (' ' :: rest) = form rest := by
  rw [blanksThen, if_pos (by decide), blanksThen_eq_none hrest, Option.none_or]

theorem gap_of_blanksThen (h : blanksThen form cs = some a) :
    ∃ gap rest, Gap gap ∧ cs = gap ++ rest ∧ form rest = some a := by
  induction cs with
  | nil => cases h
  | cons c cs ih =>
    rw [blanksThen] at h
    split at h
    · next hblank =>
      rcases Option.or_eq_some_iff.mp h with hmore | ⟨-, hhere⟩
      · obtain ⟨gap, rest, hgap, rfl, hform⟩ := ih hmore
        exact ⟨c :: gap, rest, ⟨List.cons_ne_nil c gap, by simp [hblank, hgap.2]⟩, rfl, hform⟩
      · exact ⟨[c], cs, ⟨by simp, by simp [hblank]⟩, rfl, hhere⟩
    · cases h

/-- Where no shorter first part leaves a rest of the form, a first part is the shortest. -/
theorem shortest_append (hne : first ≠ []) (hform : form rest = some a)
    (hshorter : ∀ x y, first = x ++ y → x ≠ [] → y ≠ [] → form (y ++ rest) = none) :
    shortest form (first ++ rest) = some (first, a) := by
  induction first with
  | nil => exact absurd rfl hne
  | cons c first ih =>
    rw [List.cons_append, shortest]
    by_cases hlast : first = []
    · rw [hlast, List.nil_append, hform]
    · rw [hshorter [c] first rfl (by simp) hlast,
        ih hlast fun x y hxy hx hy => hshorter (c :: x) y (by rw [hxy]; rfl) (by simp) hy]
      rfl

theorem append_of_shortest (h : shortest form cs = some (first, a)) :
    first ≠ [] ∧ ∃ rest, cs = first ++ rest ∧ form rest = some a := by
  induction cs generalizing first with
  | nil => cases h
  | cons c cs ih =>
    rw [shortest] at h
    split at h
    · next hform =>
      cases h
      exact ⟨by simp, cs, rfl, hform⟩
    · obtain ⟨⟨first', a'⟩, hshortest, heq⟩ := Option.map_eq_some_iff.mp h
      cases heq
      obtain ⟨-, rest, rfl, hform⟩ := ih hshortest
      exact ⟨by simp, rest, rfl, hform⟩

theorem longest_eq_none (h : ∀ x y, cs = x ++ y → x ≠ [] → form y = none) :
    longest form cs = none := by
  induction cs with
  | nil => rfl
  | cons c cs ih =>
    rw [longest, ih fun x y hxy _ => h (c :: x) y (by rw [hxy]; rfl) (by simp)]
    dsimp only
    rw [h [c] cs rfl (by simp), Option.map_none]

theorem longest_append (hne : first ≠ []) (hform : form rest = some a)
    (hlonger : longest form rest = none) : longest form (first ++ rest) = some (first, a) := by
  induction first with
  | nil => exact absurd rfl hne
  | cons c first ih =>
    rw [List.cons_append, longest]
    by_cases hlast : first = []
    · rw [hlast, List.nil_append, hlonger]
      dsimp only
      rw [hform]
      rfl
    · rw [ih hlast]

theorem append_of_longest (h : longest form cs = some (first, a)) :
    first ≠ [] ∧ ∃ rest, cs = first ++ rest ∧ form rest = some a := by
  induction cs generalizing first with
  | nil => cases h
  | cons c cs ih =>
    rw [longest] at h
    split at h
    · next first' a' hlongest =>
      cases h
      obtain ⟨-, rest, rfl, hform⟩ := ih hlongest
      exact ⟨by simp, rest, rfl, hform⟩
    · obtain ⟨a', hform, heq⟩ := Option.map_eq_some_iff.mp h
      cases heq
      exact ⟨by simp, cs, rfl, hform⟩

/-- What stands in front of a character that it does not hold itself ends before it. -/
theorem prefix_of_not_mem {xs ys m z : List Char} {c : Char} (h : xs ++ c :: ys = m ++ z)
    (hm : c ∉ m) : m <+: xs := by
  rcases List.append_eq_append_iff.mp h with ⟨between, rfl, hbetween⟩ | ⟨between, rfl, -⟩
  · cases between with
    | nil => simp
    | cons d between =>
      obtain ⟨rfl, -⟩ := List.cons.inj hbetween
      simp at hm
  · exact List.prefix_append m between

end CodeAudit.Diagnostic
