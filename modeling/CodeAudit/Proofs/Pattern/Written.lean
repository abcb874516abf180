import CodeAudit.Pattern.Filter
import CodeAudit.Proofs.Steps
namespace CodeAudit.Pattern

/-- A bracket expression's mark of negation and what it lists, of which the first character may be
a closing bracket. -/
structure Listing (mark listed : List Char) : Prop where
  isMark : mark = ['!'] ∨ mark = ['^'] ∨
    mark = [] ∧ listed.head? ≠ some '!' ∧ listed.head? ≠ some '^'
  closesLater : ∃ c inner, listed = c :: inner ∧ ']' ∉ inner

/-- A segment that is complete, with what its bracket expressions list. -/
inductive Spelled : List Char → List (List Char) → Prop
  | nil : Spelled [] []
  | escaped (c : Char) {rest : List Char} {listings : List (List Char)}
      (h : Spelled rest listings) : Spelled ('\\' :: c :: rest) listings
  | bracket {mark listed rest : List Char} {listings : List (List Char)}
      (hl : Listing mark listed) (h : Spelled rest listings) :
      Spelled ('[' :: (mark ++ listed ++ ']' :: rest)) (listed :: listings)
  | plain {c : Char} {rest : List Char} {listings : List (List Char)} (hesc : c ≠ '\\')
      (hbr : c ≠ '[') (h : Spelled rest listings) : Spelled (c :: rest) listings

def Whole (s : List Char) : Prop := ∃ listings, Spelled s listings

/-- A segment that ends in a backslash with nothing to escape. -/
def Unfinished (s : List Char) : Prop := ∃ front, Whole front ∧ s = front ++ ['\\']

/-- A segment with a bracket that is not closed. -/
def Unclosed (s : List Char) : Prop :=
  ∃ front rest, Whole front ∧ bracket rest = none ∧ s = front ++ '[' :: rest

/-- Something listed goes from a later to an earlier character. -/
def Descends (listings : List (List Char)) : Prop :=
  ∃ listed ∈ listings, ∃ range ∈ rangesOf listed, range.2 < range.1

/-- A complete segment with a range from a later to an earlier character. -/
def Backward (s : List Char) : Prop := ∃ listings, Spelled s listings ∧ Descends listings

theorem descends_cons (listed : List Char) (listings : List (List Char)) :
    Descends (listed :: listings) ↔
      (∃ range ∈ rangesOf listed, range.2 < range.1) ∨ Descends listings := by
  simp [Descends]

theorem reversed_range (negated : Bool) (listed : List Char) :
    Glob.reversed (.range negated (rangesOf listed)) = true ↔
      ∃ range ∈ rangesOf listed, range.2 < range.1 := by
  simp [Glob.reversed]

theorem splitBracket_iff {cs inner rest : List Char} :
    splitBracket cs = some (inner, rest) ↔ cs = inner ++ ']' :: rest ∧ ']' ∉ inner := by
  induction cs generalizing inner with
  | nil => simp [splitBracket]
  | cons c cs ih =>
    by_cases hc : c = ']'
    · subst hc
      cases inner with
      | nil => simp [splitBracket, eq_comm]
      | cons d inner => simp +contextual [splitBracket, eq_comm]
    · rw [splitBracket]
      · simp only [Option.map_eq_some_iff, Prod.exists, Prod.mk.injEq]
        constructor
        · intro h
          obtain ⟨i, r, hs, rfl, rfl⟩ := h
          obtain ⟨rfl, hi⟩ := ih.mp hs
          exact ⟨rfl, by simp [hi, Ne.symm hc]⟩
        · intro h
          obtain ⟨hcs, hi⟩ := h
          cases inner with
          | nil => exact absurd (List.cons.inj hcs).1 hc
          | cons d inner =>
            obtain ⟨rfl, rfl⟩ := List.cons.inj hcs
            exact ⟨inner, rest, ih.mpr ⟨rfl, fun hm => hi (List.mem_cons_of_mem c hm)⟩, rfl, rfl⟩
      · exact hc

/-- What a bracket expression lists after its mark, and what follows it. -/
def listing (body : List Char) : Option (List Char × List Char) :=
  match body with
  | ']' :: more => (splitBracket more).map fun (inner, rest) => (']' :: inner, rest)
  | body => splitBracket body

theorem listing_eq_some {body listed rest : List Char} :
    listing body = some (listed, rest) ↔
      body = listed ++ ']' :: rest ∧ ∃ c inner, listed = c :: inner ∧ ']' ∉ inner := by
  unfold listing
  split
  · next more =>
    simp only [Option.map_eq_some_iff, Prod.exists, Prod.mk.injEq, splitBracket_iff]
    constructor
    · intro h
      obtain ⟨inner, r, ⟨rfl, hi⟩, rfl, rfl⟩ := h
      exact ⟨rfl, _, _, rfl, hi⟩
    · intro h
      obtain ⟨hb, c, inner, rfl, hi⟩ := h
      obtain ⟨rfl, rfl⟩ := List.cons.inj hb
      exact ⟨inner, rest, ⟨rfl, hi⟩, rfl, rfl⟩
  · next hfirst =>
    rw [splitBracket_iff]
    constructor
    · intro h
      obtain ⟨rfl, hi⟩ := h
      cases listed with
      | nil => exact absurd rfl (hfirst rest)
      | cons c inner => exact ⟨rfl, c, inner, rfl, fun h => hi (List.mem_cons_of_mem c h)⟩
    · intro h
      obtain ⟨rfl, c, inner, rfl, hi⟩ := h
      refine ⟨rfl, fun h => ?_⟩
      rcases List.mem_cons.mp h with rfl | h
      · exact hfirst _ rfl
      · exact hi h

/-- A bracket expression's mark, and what follows it. -/
def unmarked : List Char → List Char × List Char
  | '!' :: body => (['!'], body)
  | '^' :: body => (['^'], body)
  | body => ([], body)

theorem unmarked_of_head {body : List Char} (hbang : body.head? ≠ some '!')
    (hcaret : body.head? ≠ some '^') : unmarked body = ([], body) := by
  unfold unmarked
  split
  · exact absurd rfl hbang
  · exact absurd rfl hcaret
  · rfl

theorem unmarked_split (cs : List Char) :
    cs = (unmarked cs).1 ++ (unmarked cs).2 ∧
      ((unmarked cs).1 = ['!'] ∨ (unmarked cs).1 = ['^'] ∨
        (unmarked cs).1 = [] ∧ cs.head? ≠ some '!' ∧ cs.head? ≠ some '^') := by
  unfold unmarked
  split
  · simp
  · simp
  · next hbang hcaret =>
    refine ⟨rfl, .inr (.inr ⟨rfl, ?_, ?_⟩)⟩
    · intro h
      obtain ⟨body, rfl⟩ := List.head?_eq_some_iff.mp h
      exact hbang body rfl
    · intro h
      obtain ⟨body, rfl⟩ := List.head?_eq_some_iff.mp h
      exact hcaret body rfl

theorem bracket_eq (cs : List Char) :
    bracket cs = (listing (unmarked cs).2).map fun (listed, rest) =>
      (.range (!(unmarked cs).1.isEmpty) (rangesOf listed), rest) := by
  fun_cases unmarked cs with
  | case1 body => rfl
  | case2 body => rfl
  | case3 _ hbang hcaret =>
    unfold bracket listing
    split
    next negated body hmark =>
    split at hmark
    · next more => exact absurd rfl (hbang more)
    · next more => exact absurd rfl (hcaret more)
    · cases hmark
      rfl

/-- A bracket expression that is written out is read. -/
theorem Listing.bracket {mark listed : List Char} (hl : Listing mark listed) (rest : List Char) :
    Pattern.bracket (mark ++ listed ++ ']' :: rest) =
      some (.range (!mark.isEmpty) (rangesOf listed), rest) := by
  have hlisted : listing (listed ++ ']' :: rest) = some (listed, rest) :=
    listing_eq_some.mpr ⟨rfl, hl.closesLater⟩
  have hmark : unmarked (mark ++ listed ++ ']' :: rest) = (mark, listed ++ ']' :: rest) := by
    rcases hl.isMark with rfl | rfl | ⟨rfl, hbang, hcaret⟩
    · rfl
    · rfl
    · obtain ⟨c, inner, rfl, -⟩ := hl.closesLater
      exact unmarked_of_head hbang hcaret
  rw [bracket_eq, hmark, hlisted]
  rfl

/-- What is read as a bracket expression is one. -/
theorem bracket_written {cs rest : List Char} {g : Glob} (h : bracket cs = some (g, rest)) :
    ∃ mark listed, Listing mark listed ∧ cs = mark ++ listed ++ ']' :: rest := by
  rw [bracket_eq] at h
  obtain ⟨⟨listed, r⟩, hl, he⟩ := Option.map_eq_some_iff.mp h
  obtain ⟨-, rfl⟩ := Prod.mk.inj he
  obtain ⟨hbody, c, inner, rfl, hi⟩ := listing_eq_some.mp hl
  obtain ⟨hcs, hmark⟩ := unmarked_split cs
  rw [hbody, ← List.append_assoc] at hcs
  refine ⟨(unmarked cs).1, c :: inner, ⟨?_, c, inner, rfl, hi⟩, hcs⟩
  refine hmark.imp_right (Or.imp_right fun hnone => ?_)
  obtain ⟨hm, hhead⟩ := hnone
  rw [hcs, hm] at hhead
  exact ⟨hm, hhead⟩

/-- A character that opens nothing is one piece, which is no range. -/
theorem globsFrom_plain {c : Char} (hesc : c ≠ '\\') (hbr : c ≠ '[') (n : Nat) (cs : List Char) :
    ∃ g, Glob.reversed g = false ∧ globsFrom (n + 1) (c :: cs) = (globsFrom n cs).map (g :: ·) := by
  by_cases hstar : c = '*'
  · subst hstar
    exact ⟨.many, rfl, rfl⟩
  · by_cases hmark : c = '?'
    · subst hmark
      exact ⟨.one, rfl, rfl⟩
    · refine ⟨.literal c, rfl, ?_⟩
      rw [globsFrom]
      all_goals simp_all

theorem map_append (g : Glob) (gs : List Glob) (x : Except Stop (List Glob)) :
    (x.map (gs ++ ·)).map (g :: ·) = x.map (g :: gs ++ ·) := by
  cases x <;> rfl

/-- What is complete is read, and then what follows it. -/
theorem Spelled.globsFrom {front : List Char} {listings : List (List Char)}
    (h : Spelled front listings) (rest : List Char) (n : Nat)
    (hn : (front ++ rest).length ≤ n) :
    ∃ gs m, rest.length ≤ m ∧
      Pattern.globsFrom n (front ++ rest) = (Pattern.globsFrom m rest).map (gs ++ ·) ∧
      (gs.any Glob.reversed = true ↔ Descends listings) := by
  induction h generalizing n with
  | nil =>
    refine ⟨[], n, hn, ?_, by simp [Descends]⟩
    rw [List.nil_append]
    cases Pattern.globsFrom n rest <;> rfl
  | escaped c h ih =>
    obtain ⟨n, rfl⟩ := Nat.exists_eq_add_one.mpr (Nat.lt_of_lt_of_le (Nat.succ_pos _) hn)
    obtain ⟨gs, m, hm, hgs, hd⟩ := ih n (by simp at hn ⊢; omega)
    refine ⟨.literal c :: gs, m, hm, ?_, ?_⟩
    · rw [List.cons_append, List.cons_append, Pattern.globsFrom, hgs, map_append]
    · rw [List.any_cons, ← hd]
      rfl
  | @bracket mark listed more listings hl h ih =>
    obtain ⟨n, rfl⟩ := Nat.exists_eq_add_one.mpr (Nat.lt_of_lt_of_le (Nat.succ_pos _) hn)
    obtain ⟨gs, m, hm, hgs, hd⟩ := ih n (by simp at hn ⊢; omega)
    refine ⟨.range (!mark.isEmpty) (rangesOf listed) :: gs, m, hm, ?_, ?_⟩
    · have hread := hl.bracket (more ++ rest)
      rw [List.cons_append, List.append_assoc, List.cons_append, Pattern.globsFrom, hread]
      simp only [hgs, map_append]
    · rw [List.any_cons, Bool.or_eq_true, reversed_range, hd, descends_cons]
  | plain hesc hbr h ih =>
    obtain ⟨n, rfl⟩ := Nat.exists_eq_add_one.mpr (Nat.lt_of_lt_of_le (Nat.succ_pos _) hn)
    obtain ⟨gs, m, hm, hgs, hd⟩ := ih n (by simp at hn ⊢; omega)
    obtain ⟨g, hg, hread⟩ := globsFrom_plain hesc hbr n _
    refine ⟨g :: gs, m, hm, ?_, ?_⟩
    · rw [List.cons_append, hread, hgs, map_append]
    · rw [List.any_cons, hg, Bool.false_or, hd]

/-- A segment is complete, or ends in the middle of an escape or of a bracket expression. -/
theorem whole_or (s : List Char) : Whole s ∨ Unfinished s ∨ Unclosed s := by
  induction hn : s.length using Nat.strongRecOn generalizing s with
  | ind n ih =>
    have extend (front rest : List Char) (hs : s = front ++ rest) (hne : front ≠ [])
        (hfront : ∀ t, Whole t → Whole (front ++ t)) : Whole s ∨ Unfinished s ∨ Unclosed s := by
      subst hs
      have hlt : rest.length < n := by
        have hpos := List.length_pos_iff.mpr hne
        rw [List.length_append] at hn
        omega
      rcases ih rest.length hlt rest rfl with hw | ⟨f, hf, rfl⟩ | ⟨f, r, hf, hr, rfl⟩
      · exact .inl (hfront rest hw)
      · exact .inr (.inl ⟨front ++ f, hfront f hf, by simp⟩)
      · exact .inr (.inr ⟨front ++ f, r, hfront f hf, hr, by simp⟩)
    cases s with
    | nil => exact .inl ⟨[], .nil⟩
    | cons c rest =>
      by_cases hesc : c = '\\'
      · subst hesc
        cases rest with
        | nil => exact .inr (.inl ⟨[], ⟨[], .nil⟩, rfl⟩)
        | cons d rest =>
          exact extend ['\\', d] rest rfl (by simp) fun t ht =>
            ht.imp fun _ hl => .escaped d hl
      · by_cases hbr : c = '['
        · subst hbr
          cases hb : bracket rest with
          | none => exact .inr (.inr ⟨[], rest, ⟨[], .nil⟩, hb, rfl⟩)
          | some read =>
            obtain ⟨mark, listed, hl, rfl⟩ := bracket_written hb
            refine extend ('[' :: (mark ++ listed ++ [']'])) read.2 (by simp) (by simp) ?_
            intro t ht
            obtain ⟨listings, hw⟩ := ht
            refine ⟨listed :: listings, ?_⟩
            have hcons := Spelled.bracket hl hw
            simpa using hcons
        · exact extend [c] rest rfl (by simp) fun t ht => ht.imp fun _ hl => .plain hesc hbr hl

/-- A complete segment is read, and a range is reversed where one is written so. -/
theorem segment_spelled {s : List Char} {listings : List (List Char)} (h : Spelled s listings) :
    ∃ gs, segment s = .ok gs ∧ (gs.any Glob.reversed = true ↔ Descends listings) := by
  by_cases hstar : s = ['*']
  · subst hstar
    cases h with
    | plain hesc hbr h =>
      cases h
      exact ⟨[.some], rfl, by simp [Descends, Glob.reversed]⟩
  · obtain ⟨gs, m, -, hgs, hd⟩ := h.globsFrom [] s.length (by simp)
    refine ⟨gs, ?_, hd⟩
    rw [segment, if_neg hstar]
    rw [List.append_nil] at hgs
    rw [hgs]
    cases m <;> simp [globsFrom, Except.map]

/-- What stops the reading of a text after something complete stops that of the whole. -/
theorem segment_stops {front rest : List Char} {e : Stop} (hf : Whole front)
    (hstar : front ++ rest ≠ ['*'])
    (h : ∀ m, rest.length ≤ m → globsFrom m rest = .error e) :
    segment (front ++ rest) = .error e := by
  obtain ⟨listings, hw⟩ := hf
  obtain ⟨gs, m, hm, hgs, -⟩ := hw.globsFrom rest _ (Nat.le_refl _)
  rw [segment, if_neg hstar, hgs, h m hm]
  rfl

theorem segment_unfinished {s : List Char} (h : Unfinished s) :
    segment s = .error .openEscape := by
  obtain ⟨front, hf, rfl⟩ := h
  refine segment_stops hf (by simp [List.append_eq_singleton_iff]) ?_
  intro m hm
  cases m with
  | zero => simp at hm
  | succ m => rfl

theorem segment_unclosed {s : List Char} (h : Unclosed s) :
    segment s = .error .openBracket := by
  obtain ⟨front, rest, hf, hb, rfl⟩ := h
  refine segment_stops hf (by simp [List.append_eq_singleton_iff]) ?_
  intro m hm
  cases m with
  | zero => simp at hm
  | succ m => rw [globsFrom, hb]

theorem segment_ok_iff {s : List Char} : (∃ gs, segment s = .ok gs) ↔ Whole s := by
  constructor
  · intro h
    obtain ⟨gs, hgs⟩ := h
    rcases whole_or s with hw | hu | hu
    · exact hw
    · rw [segment_unfinished hu] at hgs
      cases hgs
    · rw [segment_unclosed hu] at hgs
      cases hgs
  · intro h
    obtain ⟨listings, hw⟩ := h
    obtain ⟨gs, hgs, -⟩ := segment_spelled hw
    exact ⟨gs, hgs⟩

theorem segment_openEscape_iff {s : List Char} :
    segment s = .error .openEscape ↔ Unfinished s := by
  constructor
  · intro h
    rcases whole_or s with hw | hu | hu
    · obtain ⟨gs, hgs⟩ := segment_ok_iff.mpr hw
      rw [hgs] at h
      cases h
    · exact hu
    · rw [segment_unclosed hu] at h
      cases h
  · exact segment_unfinished

theorem segment_reversed_iff {s : List Char} {gs : List Glob} (h : segment s = .ok gs) :
    gs.any Glob.reversed = true ↔ Backward s := by
  constructor
  · intro hr
    obtain ⟨listings, hw⟩ := segment_ok_iff.mp ⟨gs, h⟩
    obtain ⟨gs', hgs, hd⟩ := segment_spelled hw
    obtain rfl := Except.ok.inj (h.symm.trans hgs)
    exact ⟨listings, hw, hd.mp hr⟩
  · intro hb
    obtain ⟨listings, hw, hd⟩ := hb
    obtain ⟨gs', hgs, hr⟩ := segment_spelled hw
    obtain rfl := Except.ok.inj (h.symm.trans hgs)
    exact hr.mpr hd

end CodeAudit.Pattern
