import CodeAudit.Proofs.Pattern.Written
namespace CodeAudit.Pattern

/-- The first of some things that is not fine fails. -/
def FirstFails {α : Type} (fine fails : α → Prop) (l : List α) : Prop :=
  ∃ before a after, l = before ++ a :: after ∧ (∀ b ∈ before, fine b) ∧ fails a

section
variable {α : Type} {fine fails : α → Prop}

theorem firstFails_nil : ¬ FirstFails fine fails [] := by
  intro h
  obtain ⟨before, a, after, hl, -⟩ := h
  simp at hl

theorem firstFails_cons (a : α) (l : List α) :
    FirstFails fine fails (a :: l) ↔ fails a ∨ fine a ∧ FirstFails fine fails l := by
  constructor
  · intro h
    obtain ⟨before, b, after, hl, hfine, hfails⟩ := h
    cases before with
    | nil =>
      obtain ⟨rfl, rfl⟩ := List.cons.inj hl
      exact .inl hfails
    | cons c before =>
      obtain ⟨rfl, rfl⟩ := List.cons.inj hl
      obtain ⟨hc, hfine⟩ := List.forall_mem_cons.mp hfine
      exact .inr ⟨hc, before, b, after, rfl, hfine, hfails⟩
  · intro h
    rcases h with h | ⟨ha, before, b, after, rfl, hfine, hfails⟩
    · exact ⟨[], a, l, rfl, by simp, h⟩
    · exact ⟨a :: before, b, after, rfl, List.forall_mem_cons.mpr ⟨ha, hfine⟩, hfails⟩

theorem firstFails_append (l more : List α) :
    FirstFails fine fails (l ++ more) ↔
      FirstFails fine fails l ∨ (∀ a ∈ l, fine a) ∧ FirstFails fine fails more := by
  induction l with
  | nil => simp [firstFails_nil]
  | cons a l ih =>
    rw [List.cons_append, firstFails_cons, firstFails_cons, ih, List.forall_mem_cons, and_or_left,
      and_assoc, or_assoc]

theorem FirstFails.not_all {l : List α} (h : FirstFails fine fails l)
    (hexcl : ∀ a, fine a → ¬ fails a) : ¬ ∀ a ∈ l, fine a := by
  intro hall
  obtain ⟨before, a, after, rfl, -, ha⟩ := h
  exact hexcl a (hall a (by simp)) ha

/-- Where each thing is fine or fails in some way, all are fine or one is the first to fail. -/
theorem all_or_firstFails {ι : Type} {ways : ι → α → Prop} (hor : ∀ a, fine a ∨ ∃ i, ways i a)
    (l : List α) : (∀ a ∈ l, fine a) ∨ ∃ i, FirstFails fine (ways i) l := by
  induction l with
  | nil => exact .inl (by simp)
  | cons a rest ih =>
    rcases hor a with ha | ⟨i, ha⟩
    · rcases ih with hall | ⟨i, hi⟩
      · exact .inl (List.forall_mem_cons.mpr ⟨ha, hall⟩)
      · exact .inr ⟨i, (firstFails_cons a rest).mpr (.inr ⟨ha, hi⟩)⟩
    · exact .inr ⟨i, (firstFails_cons a rest).mpr (.inl ha)⟩

/-- What is fine and does not fail may be left out. -/
theorem firstFails_filter (p : α → Bool) (l : List α)
    (hidle : ∀ a ∈ l, p a = false → fine a ∧ ¬ fails a) :
    FirstFails fine fails (l.filter p) ↔ FirstFails fine fails l := by
  induction l with
  | nil => rfl
  | cons a l ih =>
    obtain ⟨ha, hl⟩ := List.forall_mem_cons.mp hidle
    rw [firstFails_cons]
    cases hp : p a with
    | true => rw [List.filter_cons_of_pos hp, firstFails_cons, ih hl]
    | false =>
      obtain ⟨hfine, hfails⟩ := ha hp
      rw [List.filter_cons_of_neg (by simp [hp]), ih hl]
      simp [hfine, hfails]

end

/-- Segments before the one that stops are complete. -/
def Stops (e : Stop) (segments : List (List Char)) : Prop :=
  FirstFails Whole (fun s => segment s = .error e) segments

/-- Whether a segment is more than a sign of where names may stand. -/
def tells (s : List Char) : Bool := s ≠ [] && s ≠ deep

theorem idle_of_not_tells {s : List Char} (h : tells s = false) :
    Whole s ∧ (∀ e, segment s ≠ .error e) ∧ ¬ Backward s := by
  have hcases : s = [] ∨ s = deep := by
    simp only [tells, Bool.and_eq_false_iff, decide_eq_false_iff_not, ne_eq, Decidable.not_not] at h
    exact h
  have hread : ∃ gs, segment s = .ok gs ∧ gs.any Glob.reversed = false := by
    rcases hcases with rfl | rfl
    · exact ⟨[], rfl, rfl⟩
    · exact ⟨[.many, .many], rfl, rfl⟩
  obtain ⟨gs, hgs, hr⟩ := hread
  refine ⟨segment_ok_iff.mp ⟨gs, hgs⟩, by simp [hgs], ?_⟩
  rw [← segment_reversed_iff hgs, hr]
  exact Bool.false_ne_true

theorem deep_idle : Whole deep ∧ (∀ e, segment deep ≠ .error e) ∧ ¬ Backward deep :=
  idle_of_not_tells rfl

/-- Only the segments that tell something decide about the reading of a pattern. -/
theorem stops_filter (e : Stop) (segments : List (List Char)) :
    Stops e (segments.filter tells) ↔ Stops e segments :=
  firstFails_filter tells segments fun _ _ hs =>
    ⟨(idle_of_not_tells hs).1, (idle_of_not_tells hs).2.1 e⟩

theorem exists_backward_filter (segments : List (List Char)) :
    (∃ s ∈ segments.filter tells, Backward s) ↔ ∃ s ∈ segments, Backward s := by
  constructor
  · intro h
    obtain ⟨s, hs, hb⟩ := h
    exact ⟨s, (List.mem_filter.mp hs).1, hb⟩
  · intro h
    obtain ⟨s, hs, hb⟩ := h
    cases ht : tells s with
    | true => exact ⟨s, List.mem_filter.mpr ⟨hs, ht⟩, hb⟩
    | false => exact absurd hb (idle_of_not_tells ht).2.2

theorem collapse_filter (segments : List (List Char)) :
    (collapse segments).filter tells = segments.filter tells := by
  induction segments with
  | nil => rfl
  | cons s rest ih =>
    rw [collapse]
    split
    · next hd =>
      have hs : s = deep := by
        simp only [Bool.and_eq_true, decide_eq_true_eq] at hd
        exact hd.1
      subst hs
      rw [ih, List.filter_cons_of_neg (by decide)]
    · rw [List.filter_cons, List.filter_cons, ih]

/-- The final form of a pattern has the segments that tell something as they are written. -/
theorem settle_filter (raw : List (List Char)) :
    (settle raw).filter tells = raw.filter tells := by
  unfold settle
  extract_lets anchored closed
  have hanchored : anchored.filter tells = raw.filter tells := by
    unfold anchored
    split
    · rfl
    · split
      · rfl
      · rfl
    · split
      · rfl
      · rfl
    · rfl
  have hclosed : closed.filter tells = anchored.filter tells := by
    unfold closed
    split
    · next hl =>
      obtain ⟨front, hfront⟩ := List.getLast?_eq_some_iff.mp hl
      rw [hfront, List.dropLast_concat, List.filter_append, List.filter_append]
      rfl
    · rfl
  rw [collapse_filter, hclosed, hanchored]

variable {directory needsSlash : Bool} {segments : List (List Char)} {e : Stop}

theorem stops_cons (s : List Char) :
    Stops e (s :: segments) ↔ segment s = .error e ∨ Whole s ∧ Stops e segments :=
  firstFails_cons s segments

theorem partsFrom_error_iff :
    partsFrom directory needsSlash segments = .error e ↔ Stops e segments := by
  induction needsSlash, segments using partsFrom.induct with
  | case1 needsSlash =>
    rw [partsFrom]
    exact iff_of_false (by simp) firstFails_nil
  | case2 needsSlash =>
    rw [partsFrom, if_pos rfl, stops_cons]
    have hnone := deep_idle.2.1 e
    exact iff_of_false (by simp) (by simp [hnone, Stops, firstFails_nil])
  | case3 needsSlash s hd =>
    rw [partsFrom, if_neg hd, map_eq_error, stops_cons]
    simp [Stops, firstFails_nil]
  | case4 needsSlash rest hr ih =>
    rw [partsFrom, if_pos rfl, map_eq_error, ih, stops_cons]
    · simp [deep_idle.1, deep_idle.2.1 e]
    · exact hr
  | case5 needsSlash s rest hr hd ih =>
    rw [partsFrom, if_neg hd, stops_cons, ← ih, ← segment_ok_iff]
    · constructor
      · intro h
        rcases bind_eq_error.mp h with h | ⟨own, hown, h⟩
        · exact .inl h
        · exact .inr ⟨⟨own, hown⟩, map_eq_error.mp h⟩
      · intro h
        apply bind_eq_error.mpr
        rcases h with h | ⟨⟨own, hown⟩, h⟩
        · exact .inl h
        · exact .inr ⟨own, hown, map_eq_error.mpr h⟩
    · exact hr

/-- What segments read one after the other come to has a reversed range where one is written so. -/
theorem partsFrom_reversed {globs : List Glob} {finish : Finish}
    (h : partsFrom directory needsSlash segments = .ok (globs, finish)) :
    globs.any Glob.reversed = true ↔ ∃ s ∈ segments, Backward s := by
  have hdeep := deep_idle.2.2
  induction needsSlash, segments using partsFrom.induct generalizing globs finish with
  | case1 needsSlash =>
    cases h
    simp
  | case2 needsSlash =>
    rw [partsFrom, if_pos rfl] at h
    cases h
    simp [hdeep]
  | case3 needsSlash s hd =>
    rw [partsFrom, if_neg hd] at h
    obtain ⟨own, hown, he⟩ := map_eq_ok.mp h
    cases he
    have hs := segment_reversed_iff hown
    cases needsSlash <;> simpa [Glob.reversed] using hs
  | case4 needsSlash rest hr ih =>
    rw [partsFrom, if_pos rfl] at h
    · obtain ⟨⟨more, last⟩, hmore, he⟩ := map_eq_ok.mp h
      cases he
      have hrest := ih hmore
      simpa [Glob.reversed, hdeep] using hrest
    · exact hr
  | case5 needsSlash s rest hr hd ih =>
    rw [partsFrom, if_neg hd] at h
    · obtain ⟨own, hown, h⟩ := bind_eq_ok.mp h
      obtain ⟨⟨more, last⟩, hmore, he⟩ := map_eq_ok.mp h
      cases he
      have hs := segment_reversed_iff hown
      have hrest := ih hmore
      simp only [List.any_append, Bool.or_eq_true, hrest, List.mem_cons, exists_eq_or_imp, ← hs]
      cases needsSlash <;> simp [Glob.reversed]
    · exact hr

/-- A pattern for whatever is there, or for whatever is below a directory, has nothing in it that
could be refused. -/
private theorem idle_of_stars (h : ∀ s ∈ segments, s = deep ∨ s = ['*']) :
    ¬ Stops e segments ∧ ¬ ∃ s ∈ segments, Backward s := by
  have hidle : ∀ s ∈ segments, (∀ e, segment s ≠ .error e) ∧ ¬ Backward s := by
    intro s hs
    rcases h s hs with rfl | rfl
    · exact deep_idle.2
    · have hgs : segment ['*'] = .ok [.some] := rfl
      refine ⟨by simp [hgs], ?_⟩
      rw [← segment_reversed_iff hgs]
      exact Bool.false_ne_true
  constructor
  · intro hstops
    obtain ⟨before, s, after, rfl, -, hs⟩ := hstops
    exact (hidle s (by simp)).1 e hs
  · intro hback
    obtain ⟨s, hs, hb⟩ := hback
    exact (hidle s hs).2 hb

/-- The ways in which a pattern is read: at once where it is for whatever is there, and otherwise
segment by segment, with double asterisks in front as a piece of their own. -/
theorem shapeOf_cases (directory : Bool) (segments : List (List Char)) :
    ((∀ s ∈ segments, s = deep ∨ s = ['*']) ∧
      ∃ shape, shapeOf directory segments = .ok shape ∧ Shape.reversed shape = false) ∨
    ∃ front rest, (front = [] ∨ front = [Glob.above]) ∧
      segments.filter tells = rest.filter tells ∧
      shapeOf directory segments = (partsFrom directory false rest).map fun (globs, finish) =>
        .parts (front ++ globs) finish := by
  by_cases hany : segments = [deep] ∨ segments = [deep, ['*']] ∨ segments = [deep, ['*'], deep]
  · left
    rcases hany with rfl | rfl | rfl
    · refine ⟨by simp, _, rfl, ?_⟩
      cases directory <;> rfl
    · exact ⟨by simp, _, rfl, rfl⟩
    · exact ⟨by simp, _, rfl, rfl⟩
  · right
    obtain ⟨h1, h2, h3⟩ : segments ≠ [deep] ∧ segments ≠ [deep, ['*']] ∧
        segments ≠ [deep, ['*'], deep] := by simpa using hany
    unfold shapeOf
    rw [if_neg h1, if_neg h2, if_neg h3]
    cases segments with
    | nil => exact ⟨[], [], .inl rfl, rfl, rfl⟩
    | cons s rest =>
      dsimp only
      split
      · next hd =>
        subst hd
        exact ⟨[.above], rest, .inr rfl, List.filter_cons_of_neg (by decide), rfl⟩
      · exact ⟨[], s :: rest, .inl rfl, rfl, rfl⟩

theorem shapeOf_error_iff : shapeOf directory segments = .error e ↔ Stops e segments := by
  rcases shapeOf_cases directory segments with ⟨hstars, shape, hs, -⟩ | ⟨front, rest, -, hf, hs⟩
  · rw [hs]
    exact iff_of_false (by simp) (idle_of_stars hstars).1
  · rw [hs, map_eq_error, partsFrom_error_iff, ← stops_filter, ← hf, stops_filter]

theorem shapeOf_reversed {shape : Shape} (h : shapeOf directory segments = .ok shape) :
    Shape.reversed shape = true ↔ ∃ s ∈ segments, Backward s := by
  rcases shapeOf_cases directory segments with ⟨hstars, s, hs, hr⟩ | ⟨front, rest, hfront, hf, hs⟩
  · obtain rfl := Except.ok.inj (h.symm.trans hs)
    rw [hr]
    exact iff_of_false Bool.false_ne_true (idle_of_stars (e := .openBracket) hstars).2
  · obtain ⟨⟨globs, finish⟩, hp, rfl⟩ := map_eq_ok.mp (hs.symm.trans h)
    rw [← exists_backward_filter, hf, exists_backward_filter, ← partsFrom_reversed hp]
    rcases hfront with rfl | rfl
    · rfl
    · simp [Shape.reversed, Glob.reversed]

theorem stops_openEscape_iff :
    Stops .openEscape segments ↔ FirstFails Whole Unfinished segments := by
  simp only [Stops, FirstFails, segment_openEscape_iff]

theorem whole_or_stops (segments : List (List Char)) :
    (∀ s ∈ segments, Whole s) ∨ ∃ e, Stops e segments := by
  apply all_or_firstFails
  intro s
  cases hs : segment s with
  | error e => exact .inr ⟨e, rfl⟩
  | ok gs => exact .inl (segment_ok_iff.mp ⟨gs, hs⟩)

theorem not_whole_of_stops (h : Stops e segments) : ¬ ∀ s ∈ segments, Whole s := by
  apply h.not_all
  intro s hw hs
  obtain ⟨gs, hgs⟩ := segment_ok_iff.mpr hw
  cases hs.symm.trans hgs

theorem stops_unique {e' : Stop} (h : Stops e segments) (h' : Stops e' segments) : e = e' := by
  have hread : partsFrom false false segments = .error e := partsFrom_error_iff.mpr h
  exact Except.error.inj (hread.symm.trans (partsFrom_error_iff.mpr h'))

end CodeAudit.Pattern
