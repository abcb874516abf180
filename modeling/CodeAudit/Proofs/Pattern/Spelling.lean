import CodeAudit.Pattern.Basic
namespace CodeAudit.Glob

/-- What a piece can take up, whatever follows. -/
def Takes : Glob → List Char → Prop
  | literal d, taken => taken = [d]
  | one, taken => ∃ c, taken = [c] ∧ isInName c = true
  | many, taken => ∀ c ∈ taken, isInName c = true
  | some, taken => taken ≠ [] ∧ ∀ c ∈ taken, isInName c = true
  | range negated ranges, taken => ∃ c, taken = [c] ∧ (inRanges ranges c != negated) = true
  | above, taken =>
    taken = [] ∨ ∃ dirs, dirs ≠ [] ∧ taken = dirs ++ ['/'] ∧ ∀ c ∈ dirs, isInLine c = true
  | between, taken =>
    taken = [] ∨ ∃ dirs, dirs ≠ [] ∧ taken = '/' :: dirs ∧ ∀ c ∈ dirs, isInLine c = true

/-- What pieces can take up in turn. -/
def Spells : List Glob → List Char → Prop
  | [], taken => taken = []
  | g :: gs, taken => ∃ first others, taken = first ++ others ∧ g.Takes first ∧ Spells gs others

variable (k : Continuation)

theorem longest_isSome (test : Char → Bool) (cs : List Char) :
    (longest test k cs).isSome ↔
      ∃ taken rest, cs = taken ++ rest ∧ (∀ c ∈ taken, test c = true) ∧ (k rest).isSome := by
  induction cs with
  | nil =>
    rw [longest]
    constructor
    · intro h
      exact ⟨[], [], rfl, by simp, h⟩
    · intro h
      obtain ⟨taken, rest, hcs, -, hk⟩ := h
      obtain ⟨-, rfl⟩ := List.nil_eq_append_iff.mp hcs
      exact hk
  | cons c cs ih =>
    have hstop : (k (c :: cs)).isSome → ∃ taken rest, c :: cs = taken ++ rest ∧
        (∀ d ∈ taken, test d = true) ∧ (k rest).isSome :=
      fun h => ⟨[], c :: cs, rfl, by simp, h⟩
    rw [longest]
    by_cases hc : test c = true
    · rw [if_pos hc, Option.isSome_or, Bool.or_eq_true, ih]
      constructor
      · intro h
        rcases h with ⟨taken, rest, rfl, ht, hk⟩ | hk
        · exact ⟨c :: taken, rest, rfl, List.forall_mem_cons.mpr ⟨hc, ht⟩, hk⟩
        · exact hstop hk
      · intro h
        obtain ⟨taken, rest, hcs, ht, hk⟩ := h
        cases taken with
        | nil =>
          rw [List.nil_append] at hcs
          exact .inr (hcs ▸ hk)
        | cons d taken =>
          obtain ⟨rfl, rfl⟩ := List.cons.inj hcs
          exact .inl ⟨taken, rest, rfl, (List.forall_mem_cons.mp ht).2, hk⟩
    · rw [if_neg hc]
      refine ⟨hstop, ?_⟩
      intro h
      obtain ⟨taken, rest, hcs, ht, hk⟩ := h
      cases taken with
      | nil =>
        rw [List.nil_append] at hcs
        exact hcs ▸ hk
      | cons d taken =>
        obtain ⟨rfl, -⟩ := List.cons.inj hcs
        exact absurd (ht c (by simp)) hc

theorem lastSlash_isSome (cs : List Char) :
    (lastSlash k cs).isSome ↔
      ∃ dirs rest, cs = dirs ++ '/' :: rest ∧ (∀ c ∈ dirs, isInLine c = true) ∧
        (k rest).isSome := by
  induction cs with
  | nil => simp [lastSlash]
  | cons c cs ih =>
    rw [lastSlash, Option.isSome_or, Bool.or_eq_true]
    constructor
    · intro h
      rcases h with h | h
      · by_cases hc : c = '\n'
        · simp [hc] at h
        · rw [if_neg hc, ih] at h
          obtain ⟨dirs, rest, rfl, hd, hk⟩ := h
          exact ⟨c :: dirs, rest, rfl,
            List.forall_mem_cons.mpr ⟨by simpa [isInLine] using hc, hd⟩, hk⟩
      · by_cases hc : c = '/'
        · subst hc
          exact ⟨[], cs, rfl, by simp, by simpa using h⟩
        · simp [hc] at h
    · intro h
      obtain ⟨dirs, rest, hcs, hd, hk⟩ := h
      cases dirs with
      | nil =>
        obtain ⟨rfl, rfl⟩ := List.cons.inj hcs
        exact .inr (by simpa using hk)
      | cons d dirs =>
        obtain ⟨rfl, rfl⟩ := List.cons.inj hcs
        obtain ⟨hc, hd⟩ := List.forall_mem_cons.mp hd
        have hline : c ≠ '\n' := by simpa [isInLine] using hc
        rw [if_neg hline, ih]
        exact .inl ⟨dirs, rest, rfl, hd, hk⟩

/-- A piece that takes up one character takes up the first. -/
theorem single_isSome (test : Char → Prop) [DecidablePred test] (c : Char) (cs : List Char) :
    (if test c then k cs else none).isSome ↔
      ∃ taken rest, c :: cs = taken ++ rest ∧ (∃ d, taken = [d] ∧ test d) ∧ (k rest).isSome := by
  constructor
  · intro h
    by_cases hc : test c
    · rw [if_pos hc] at h
      exact ⟨[c], cs, rfl, ⟨c, rfl, hc⟩, h⟩
    · simp [hc] at h
  · intro h
    obtain ⟨taken, rest, hcs, ⟨d, rfl, hd⟩, hk⟩ := h
    obtain ⟨rfl, rfl⟩ := List.cons.inj hcs
    rw [if_pos hd]
    exact hk

/-- As `single_isSome`, for a piece that goes on as far as names do. -/
theorem some_isSome (c : Char) (cs : List Char) :
    (if isInName c = true then longest isInName k cs else none).isSome ↔
      ∃ taken rest, c :: cs = taken ++ rest ∧ some.Takes taken ∧ (k rest).isSome := by
  constructor
  · intro h
    by_cases hc : isInName c = true
    · rw [if_pos hc, longest_isSome] at h
      obtain ⟨taken, rest, rfl, ht, hk⟩ := h
      exact ⟨c :: taken, rest, rfl, ⟨by simp, List.forall_mem_cons.mpr ⟨hc, ht⟩⟩, hk⟩
    · simp [hc] at h
  · intro h
    obtain ⟨taken, rest, hcs, ⟨hne, ht⟩, hk⟩ := h
    cases taken with
    | nil => exact absurd rfl hne
    | cons d taken =>
      obtain ⟨rfl, rfl⟩ := List.cons.inj hcs
      obtain ⟨hc, ht⟩ := List.forall_mem_cons.mp ht
      rw [if_pos hc, longest_isSome]
      exact ⟨taken, rest, rfl, ht, hk⟩

/-- Directories from the start on are taken up together with the slash that ends them. -/
theorem above_isSome (c : Char) (cs : List Char) :
    (take k above (c :: cs)).isSome ↔
      ∃ taken rest, c :: cs = taken ++ rest ∧ above.Takes taken ∧ (k rest).isSome := by
  rw [take, Option.isSome_or, Bool.or_eq_true]
  constructor
  · intro h
    rcases h with h | h
    · by_cases hc : isInLine c = true
      · rw [if_pos hc, lastSlash_isSome] at h
        obtain ⟨dirs, rest, rfl, hd, hk⟩ := h
        exact ⟨c :: dirs ++ ['/'], rest, by simp,
          .inr ⟨c :: dirs, by simp, rfl, List.forall_mem_cons.mpr ⟨hc, hd⟩⟩, hk⟩
      · simp [hc] at h
    · exact ⟨[], c :: cs, rfl, .inl rfl, h⟩
  · intro h
    obtain ⟨taken, rest, hcs, rfl | ⟨dirs, hne, rfl, hd⟩, hk⟩ := h
    · rw [List.nil_append] at hcs
      exact .inr (hcs ▸ hk)
    · obtain ⟨d, dirs, rfl⟩ := List.exists_cons_of_ne_nil hne
      rw [List.append_assoc] at hcs
      obtain ⟨rfl, rfl⟩ := List.cons.inj hcs
      obtain ⟨hc, hd⟩ := List.forall_mem_cons.mp hd
      rw [if_pos hc, lastSlash_isSome]
      exact .inl ⟨dirs, rest, by simp, hd, hk⟩

/-- Directories below the one reached are taken up together with the slash before them. -/
theorem between_isSome (c : Char) (cs : List Char) :
    (take k between ('/' :: c :: cs)).isSome ↔
      ∃ taken rest, '/' :: c :: cs = taken ++ rest ∧ between.Takes taken ∧ (k rest).isSome := by
  rw [take, Option.isSome_or, Bool.or_eq_true]
  constructor
  · intro h
    rcases h with h | h
    · by_cases hc : isInLine c = true
      · rw [if_pos hc, longest_isSome] at h
        obtain ⟨dirs, rest, rfl, hd, hk⟩ := h
        exact ⟨'/' :: c :: dirs, rest, rfl,
          .inr ⟨c :: dirs, by simp, rfl, List.forall_mem_cons.mpr ⟨hc, hd⟩⟩, hk⟩
      · simp [hc] at h
    · exact ⟨[], '/' :: c :: cs, rfl, .inl rfl, h⟩
  · intro h
    obtain ⟨taken, rest, hcs, rfl | ⟨dirs, hne, rfl, hd⟩, hk⟩ := h
    · rw [List.nil_append] at hcs
      exact .inr (hcs ▸ hk)
    · obtain ⟨d, dirs, rfl⟩ := List.exists_cons_of_ne_nil hne
      obtain ⟨-, hcs⟩ := List.cons.inj hcs
      obtain ⟨rfl, rfl⟩ := List.cons.inj hcs
      obtain ⟨hc, hd⟩ := List.forall_mem_cons.mp hd
      rw [if_pos hc, longest_isSome]
      exact .inl ⟨dirs, rest, rfl, hd, hk⟩

/-- Where no directories can be taken up, nothing is. -/
theorem idle_isSome (g : Glob) (cs : List Char) (hnil : g.Takes [])
    (honly : ∀ taken rest, cs = taken ++ rest → g.Takes taken → taken = []) :
    (k cs).isSome ↔ ∃ taken rest, cs = taken ++ rest ∧ g.Takes taken ∧ (k rest).isSome := by
  constructor
  · intro h
    exact ⟨[], cs, rfl, hnil, h⟩
  · intro h
    obtain ⟨taken, rest, hcs, ht, hk⟩ := h
    obtain rfl := honly taken rest hcs ht
    exact hcs ▸ hk

/-- A piece and what follows match exactly if the text is what the piece can take up, and then a
text that matches. -/
theorem take_isSome (g : Glob) (cs : List Char) :
    (take k g cs).isSome ↔
      ∃ taken rest, cs = taken ++ rest ∧ g.Takes taken ∧ (k rest).isSome := by
  cases g with
  | literal d =>
    cases cs with
    | nil => simp [take, Takes]
    | cons c cs => simpa [take, Takes] using single_isSome k (· = d) c cs
  | one =>
    cases cs with
    | nil => simp [take, Takes]
    | cons c cs => exact single_isSome k (isInName · = true) c cs
  | many => cases cs <;> exact longest_isSome k isInName _
  | some =>
    cases cs with
    | nil => simp [take, Takes]
    | cons c cs => exact some_isSome k c cs
  | range negated ranges =>
    cases cs with
    | nil => simp [take, Takes]
    | cons c cs => exact single_isSome k (fun d => (inRanges ranges d != negated) = true) c cs
  | above =>
    cases cs with
    | nil =>
      apply idle_isSome k above [] (.inl rfl)
      intro taken rest hcs _
      exact (List.nil_eq_append_iff.mp hcs).1
    | cons c cs => exact above_isSome k c cs
  | between =>
    by_cases hb : ∃ c more, cs = '/' :: c :: more
    · obtain ⟨c, more, rfl⟩ := hb
      exact between_isSome k c more
    · have hstop : take k between cs = k cs := by
        rw [take]
        intro c more h
        subst h
        exact hb ⟨c, more, rfl⟩
      rw [hstop]
      apply idle_isSome k between cs (.inl rfl)
      intro taken rest hcs h
      subst hcs
      rcases h with rfl | ⟨dirs, hne, rfl, -⟩
      · rfl
      · obtain ⟨d, dirs, rfl⟩ := List.exists_cons_of_ne_nil hne
        exact absurd ⟨d, dirs ++ rest, rfl⟩ hb

/-- As `take_isSome`, for pieces in turn. -/
theorem takeAll_isSome (gs : List Glob) (cs : List Char) :
    (takeAll k gs cs).isSome ↔
      ∃ taken rest, cs = taken ++ rest ∧ Spells gs taken ∧ (k rest).isSome := by
  induction gs generalizing cs with
  | nil =>
    constructor
    · intro h
      exact ⟨[], cs, rfl, rfl, h⟩
    · intro h
      obtain ⟨taken, rest, rfl, rfl, hk⟩ := h
      exact hk
  | cons g gs ih =>
    rw [takeAll, take_isSome]
    constructor
    · intro h
      obtain ⟨first, more, rfl, hg, h⟩ := h
      obtain ⟨others, rest, rfl, hgs, hk⟩ := (ih more).mp h
      exact ⟨first ++ others, rest, by simp, ⟨first, others, rfl, hg, hgs⟩, hk⟩
    · intro h
      obtain ⟨taken, rest, rfl, ⟨first, others, rfl, hg, hgs⟩, hk⟩ := h
      exact ⟨first, others ++ rest, by simp, hg, (ih _).mpr ⟨others, rest, rfl, hgs, hk⟩⟩

theorem spells_append (gs hs : List Glob) (taken : List Char) :
    Spells (gs ++ hs) taken ↔
      ∃ first others, taken = first ++ others ∧ Spells gs first ∧ Spells hs others := by
  induction gs generalizing taken with
  | nil =>
    constructor
    · intro h
      exact ⟨[], taken, rfl, rfl, h⟩
    · intro h
      obtain ⟨first, others, rfl, rfl, h⟩ := h
      exact h
  | cons g gs ih =>
    simp only [List.cons_append, Spells, ih]
    constructor
    · intro h
      obtain ⟨a, bc, rfl, hg, b, c, rfl, hgs, hhs⟩ := h
      exact ⟨a ++ b, c, by simp, ⟨a, b, rfl, hg, hgs⟩, hhs⟩
    · intro h
      obtain ⟨ab, c, rfl, ⟨a, b, rfl, hg, hgs⟩, hhs⟩ := h
      exact ⟨a, b ++ c, by simp, hg, b, c, rfl, hgs, hhs⟩

end CodeAudit.Glob
