import CodeAudit.Proofs.Pattern.Refused
import CodeAudit.Proofs.Pattern.Spelling
namespace CodeAudit.Pattern

/-- A segment in which nothing is escaped and no brackets are opened. -/
def Plain (s : List Char) : Prop := '\\' ∉ s ∧ '[' ∉ s

/-- The piece that a character of a plain segment is read as. -/
def pieceOf (c : Char) : Glob :=
  if c = '*' then .many else if c = '?' then .one else .literal c

theorem pieceOf_takes {c : Char} (hc : c ≠ '/') : (pieceOf c).Takes [c] := by
  have hname : Glob.isInName c = true := by simpa [Glob.isInName] using hc
  unfold pieceOf
  split
  · exact fun d hd => List.mem_singleton.mp hd ▸ hname
  · split
    · exact ⟨c, rfl, hname⟩
    · rfl

theorem spells_pieces {s : List Char} (hs : '/' ∉ s) : Glob.Spells (s.map pieceOf) s := by
  induction s with
  | nil => rfl
  | cons c s ih =>
    obtain ⟨hc, hs⟩ := not_or.mp (mt List.mem_cons.mpr hs)
    exact ⟨[c], s, rfl, pieceOf_takes (Ne.symm hc), ih hs⟩

theorem globsFrom_of_plain {n : Nat} {s : List Char} (hn : s.length ≤ n) (hs : Plain s) :
    globsFrom n s = .ok (s.map pieceOf) := by
  induction s generalizing n with
  | nil => cases n <;> rfl
  | cons c s ih =>
    obtain ⟨n, rfl⟩ := Nat.exists_eq_add_one.mpr (Nat.lt_of_lt_of_le (Nat.succ_pos _) hn)
    obtain ⟨hesc, hback⟩ := not_or.mp (mt List.mem_cons.mpr hs.1)
    obtain ⟨hbr, hopen⟩ := not_or.mp (mt List.mem_cons.mpr hs.2)
    have hrest := ih (Nat.le_of_succ_le_succ hn) ⟨hback, hopen⟩
    by_cases hstar : c = '*'
    · subst hstar
      rw [globsFrom, hrest]
      rfl
    · by_cases hmark : c = '?'
      · subst hmark
        rw [globsFrom, hrest]
        rfl
      · have hpiece : pieceOf c = .literal c := by rw [pieceOf, if_neg hstar, if_neg hmark]
        rw [globsFrom, hrest, List.map_cons, hpiece]
        · rfl
        all_goals simp_all [Ne.symm]

/-- A plain segment is read as pieces that take it up, none of which is a range. -/
theorem segment_of_plain {s : List Char} (hs : Plain s) (hslash : '/' ∉ s) :
    ∃ gs, segment s = .ok gs ∧ Glob.Spells gs s ∧ gs.any Glob.reversed = false := by
  by_cases hstar : s = ['*']
  · subst hstar
    refine ⟨[.some], rfl, ⟨['*'], [], rfl, ?_, rfl⟩, rfl⟩
    exact ⟨by simp, by simp [Glob.isInName]⟩
  · refine ⟨s.map pieceOf, ?_, spells_pieces hslash, ?_⟩
    · rw [segment, if_neg hstar, globsFrom_of_plain (Nat.le_refl _) hs]
    · rw [List.any_map, List.any_eq_false]
      intro c _
      simp only [Function.comp_apply, pieceOf]
      split
      · simp [Glob.reversed]
      · split <;> simp [Glob.reversed]

/-- Nothing is refused in a plain segment. -/
theorem idle_of_plain {s : List Char} (hs : Plain s) (hslash : '/' ∉ s) :
    Whole s ∧ ¬ Backward s := by
  obtain ⟨gs, hgs, -, hr⟩ := segment_of_plain hs hslash
  refine ⟨segment_ok_iff.mp ⟨gs, hgs⟩, ?_⟩
  rw [← segment_reversed_iff hgs, hr]
  exact Bool.false_ne_true

/-- Names with slashes between them. -/
def joined (names : List (List Char)) : List Char := ['/'].intercalate names

theorem joined_cons (s : List Char) {rest : List (List Char)} (hrest : rest ≠ []) :
    joined (s :: rest) = s ++ '/' :: joined rest := by
  obtain ⟨t, more, rfl⟩ := List.exists_cons_of_ne_nil hrest
  rw [joined, List.intercalate_cons_cons, List.append_assoc]
  rfl

/-- What stands before a segment. -/
def lead (needsSlash : Bool) : List Char := if needsSlash then ['/'] else []

/-- Segments are read as pieces that match a text. -/
def Reads (needsSlash : Bool) (segments : List (List Char)) (cs : List Char) : Prop :=
  ∃ globs finish, partsFrom false needsSlash segments = .ok (globs, finish) ∧
    ∃ taken rest, cs = taken ++ rest ∧ Glob.Spells globs taken ∧ (finish.hit? rest).isSome

section
variable {needsSlash : Bool} {s cs front : List Char} {rest raw : List (List Char)}

/-- The pieces of a segment take it up, with the slash before it. -/
private theorem spells_lead {gs : List Glob} (h : Glob.Spells gs s) :
    Glob.Spells (if needsSlash then .literal '/' :: gs else gs) (lead needsSlash ++ s) := by
  cases needsSlash with
  | false => exact h
  | true => exact ⟨['/'], s, rfl, rfl, h⟩

theorem reads_one (hs : Plain s ∧ '/' ∉ s) (hd : s ≠ deep) :
    Reads needsSlash [s] (lead needsSlash ++ joined [s]) := by
  obtain ⟨gs, hgs, hspells, -⟩ := segment_of_plain hs.1 hs.2
  have hone : joined [s] = s := List.append_nil s
  rw [hone]
  refine ⟨_, .whole, ?_, lead needsSlash ++ s, [], (List.append_nil _).symm, spells_lead hspells,
    rfl⟩
  rw [partsFrom, if_neg hd, hgs]
  rfl

theorem reads_cons (hs : Plain s ∧ '/' ∉ s) (hd : s ≠ deep) (hrest : rest ≠ [])
    (h : Reads true rest cs) : Reads needsSlash (s :: rest) (lead needsSlash ++ s ++ cs) := by
  obtain ⟨gs, hgs, hspells, -⟩ := segment_of_plain hs.1 hs.2
  obtain ⟨more, finish, hparts, taken, left, rfl, hmore, hleft⟩ := h
  refine ⟨_, finish, ?_, lead needsSlash ++ s ++ taken, left, by simp,
    (Glob.spells_append _ _ _).mpr ⟨_, taken, rfl, spells_lead hspells, hmore⟩, hleft⟩
  rw [partsFrom, if_neg hd, hgs, hparts]
  · rfl
  · exact hrest

theorem reads_between (hf : Glob.between.Takes front) (hrest : rest ≠ []) (h : Reads true rest cs) :
    Reads needsSlash (deep :: rest) (front ++ cs) := by
  obtain ⟨more, finish, hparts, taken, left, rfl, hmore, hleft⟩ := h
  refine ⟨.between :: more, finish, ?_, front ++ taken, left, by simp,
    ⟨front, taken, rfl, hf, hmore⟩, hleft⟩
  rw [partsFrom, if_pos rfl, hparts]
  · rfl
  · exact hrest

theorem reads_deep (hf : Glob.between.Takes front) :
    Reads needsSlash [deep] (front ++ '/' :: cs) := by
  refine ⟨[], .inside false, rfl, [], front ++ '/' :: cs, rfl, rfl, ?_⟩
  rcases hf with rfl | ⟨dirs, -, rfl, -⟩ <;> rfl

theorem deep_inLine : ∀ c ∈ deep, Glob.isInLine c = true := by
  simp [deep, Glob.isInLine]

theorem below_deep_inLine {dirs : List Char} (hdirs : ∀ c ∈ dirs, Glob.isInLine c = true) :
    ∀ c ∈ dirs ++ '/' :: deep, Glob.isInLine c = true := by
  intro c hc
  rcases List.mem_append.mp hc with hc | hc
  · exact hdirs c hc
  · rcases List.mem_cons.mp hc with rfl | hc
    · rfl
    · exact deep_inLine c hc

theorem between_deep (hf : Glob.between.Takes front) : Glob.between.Takes (front ++ '/' :: deep) := by
  right
  rcases hf with rfl | ⟨dirs, -, rfl, hdirs⟩
  · exact ⟨deep, by simp [deep], rfl, deep_inLine⟩
  · exact ⟨dirs ++ '/' :: deep, by simp, rfl, below_deep_inLine hdirs⟩

theorem above_deep (hf : Glob.above.Takes front) : Glob.above.Takes (front ++ (deep ++ ['/'])) := by
  right
  rcases hf with rfl | ⟨dirs, -, rfl, hdirs⟩
  · exact ⟨deep, by simp [deep], rfl, deep_inLine⟩
  · exact ⟨dirs ++ '/' :: deep, by simp, by simp, below_deep_inLine hdirs⟩

theorem collapse_ne_nil (hraw : raw ≠ []) : collapse raw ≠ [] := by
  rw [← List.getLast?_isSome, getLast?_collapse, List.getLast?_isSome]
  exact hraw

theorem collapse_of_ne (hd : s ≠ deep) : collapse (s :: rest) = s :: collapse rest := by
  rw [collapse, if_neg (by simp [hd])]

theorem collapse_deep_cons (t : List Char) :
    collapse (deep :: t :: rest) =
      if t = deep then collapse (t :: rest) else deep :: collapse (t :: rest) := by
  rw [collapse]
  simp

/-- Names read as segments after a slash match themselves. Double asterisks that are read as one
match in one go, so `front` holds those that were left out. -/
theorem reads_collapse (hraw : raw ≠ []) (hs : ∀ s ∈ raw, Plain s ∧ '/' ∉ s)
    (hf : Glob.between.Takes front) (hdeep : front = [] ∨ raw.head? = some deep) :
    Reads true (collapse raw) (front ++ '/' :: joined raw) := by
  induction raw generalizing front with
  | nil => exact absurd rfl hraw
  | cons s rest ih =>
    obtain ⟨hplain, hrest⟩ := List.forall_mem_cons.mp hs
    by_cases hd : s = deep
    · subst hd
      cases rest with
      | nil => exact reads_deep hf
      | cons t more =>
        have hne : t :: more ≠ [] := List.cons_ne_nil t more
        have htext : front ++ '/' :: joined (deep :: t :: more) =
            (front ++ '/' :: deep) ++ '/' :: joined (t :: more) := by
          rw [joined_cons deep hne]
          simp
        rw [htext, collapse_deep_cons]
        split
        · next ht => exact ih hne hrest (between_deep hf) (.inr (congrArg some ht))
        · exact reads_between (between_deep hf) (collapse_ne_nil hne)
            (ih hne hrest (.inl rfl) (.inl rfl))
    · obtain rfl : front = [] := hdeep.resolve_right fun h => hd (Option.some.inj h)
      rw [collapse_of_ne hd]
      cases rest with
      | nil => exact reads_one hplain hd
      | cons t more =>
        have hne : t :: more ≠ [] := List.cons_ne_nil t more
        rw [joined_cons s hne]
        exact reads_cons hplain hd (collapse_ne_nil hne) (ih hne hrest (.inl rfl) (.inl rfl))

/-- As `reads_collapse`, from the start on. -/
theorem reads_from_start (hs : ∀ t ∈ s :: rest, Plain t ∧ '/' ∉ t) (hd : s ≠ deep) :
    Reads false (collapse (s :: rest)) (joined (s :: rest)) := by
  obtain ⟨hplain, hrest⟩ := List.forall_mem_cons.mp hs
  rw [collapse_of_ne hd]
  cases rest with
  | nil => exact reads_one hplain hd
  | cons t more =>
    have hne : t :: more ≠ [] := List.cons_ne_nil t more
    rw [joined_cons s hne]
    exact reads_cons hplain hd (collapse_ne_nil hne)
      (reads_collapse hne hrest (.inl rfl) (.inl rfl))

end

/-- Segments in their final form make a pattern that matches a text. -/
def Hits (segments : List (List Char)) (cs : List Char) : Prop :=
  ∃ shape, shapeOf false segments = .ok shape ∧ (shape.hit? cs).isSome

section
variable {s cs : List Char} {segments rest raw : List (List Char)}

theorem hits_anything (hc : ∃ c ∈ cs, Glob.isInLine c = true) : (Shape.anything.hit? cs).isSome := by
  rw [Shape.hit?, if_pos (List.any_eq_true.mpr hc)]
  rfl

theorem hits_of_reads (hd : segments.head? ≠ some deep) (hne : segments ≠ [])
    (h : Reads false segments cs) : Hits segments cs := by
  obtain ⟨globs, finish, hparts, taken, left, rfl, hglobs, hleft⟩ := h
  refine ⟨.parts globs finish, ?_, (Glob.takeAll_isSome _ _ _).mpr ⟨taken, left, rfl, hglobs, hleft⟩⟩
  obtain ⟨s, rest, rfl⟩ := List.exists_cons_of_ne_nil hne
  have hs : s ≠ deep := fun h => hd (congrArg some h)
  rw [shapeOf, if_neg (by simp [hs]), if_neg (by simp [hs]), if_neg (by simp [hs])]
  simp only [if_neg hs, hparts]
  rfl

/-- Below any directories, what is read from the start on matches after `front`. -/
theorem hits_above (front : List Char) (hf : Glob.above.Takes front) (hne : segments ≠ [])
    (h : Reads false segments cs)
    (hline : segments = [['*']] → ∃ c ∈ front ++ cs, Glob.isInLine c = true)
    (hslash : segments = [['*'], deep] → '/' ∈ front ++ cs) :
    Hits (deep :: segments) (front ++ cs) := by
  by_cases hany : segments = [['*']]
  · exact ⟨.anything, by rw [hany]; rfl, hits_anything (hline hany)⟩
  · by_cases hbelow : segments = [['*'], deep]
    · refine ⟨.slash false, by rw [hbelow]; rfl, ?_⟩
      rw [Shape.hit?, if_pos (by simpa using hslash hbelow)]
      rfl
    · obtain ⟨globs, finish, hparts, taken, left, rfl, hglobs, hleft⟩ := h
      refine ⟨.parts (.above :: globs) finish, ?_, (Glob.takeAll_isSome _ _ _).mpr
        ⟨front ++ taken, left, by simp, ⟨front, taken, rfl, hf, hglobs⟩, hleft⟩⟩
      rw [shapeOf, if_neg (by simpa using hne), if_neg (by simpa using hany),
        if_neg (by simpa using hbelow)]
      simp only [hparts]
      rfl

/-- Names of which the first is a double asterisk match themselves; `front` holds double asterisks
that were left out. -/
theorem hits_collapse_deep (front : List Char) (hs : ∀ s ∈ rest, Plain s ∧ '/' ∉ s)
    (hf : Glob.above.Takes front) :
    Hits (collapse (deep :: rest)) (front ++ joined (deep :: rest)) := by
  induction rest generalizing front with
  | nil =>
    refine ⟨.anything, rfl, hits_anything ⟨'*', ?_, rfl⟩⟩
    exact List.mem_append_right front (by decide)
  | cons t more ih =>
    have hne : t :: more ≠ [] := List.cons_ne_nil t more
    have htext : front ++ joined (deep :: t :: more) =
        (front ++ (deep ++ ['/'])) ++ joined (t :: more) := by
      rw [joined_cons deep hne]
      simp
    rw [htext, collapse_deep_cons]
    split
    · next ht =>
      subst ht
      exact ih _ (List.forall_mem_cons.mp hs).2 (above_deep hf)
    · next ht =>
      apply hits_above _ (above_deep hf) (collapse_ne_nil hne) (reads_from_start hs ht)
      · exact fun _ => ⟨'*', by simp [deep], rfl⟩
      · exact fun _ => by simp

theorem settle_of_names (hraw : ∀ s ∈ raw, s ≠ []) :
    settle raw = collapse raw ∨ ∃ s, raw = [s] ∧ settle raw = [deep, s] ∧ s ≠ deep := by
  have hlast : raw.getLast? ≠ some [] := fun h => hraw [] (List.mem_of_getLast? h) rfl
  by_cases hone : ∃ s, raw = [s] ∧ s ≠ deep
  · obtain ⟨s, rfl, hd⟩ := hone
    have hs : s ≠ [] := hraw s (by simp)
    refine .inr ⟨s, rfl, ?_, hd⟩
    simp [settle, hs, hd, collapse]
  · left
    unfold settle
    extract_lets anchored closed
    have hanchored : anchored = raw := by
      unfold anchored
      split
      · exact absurd rfl (hraw [] (by simp))
      · next s hs =>
        rw [if_pos]
        by_contra hd
        exact hone ⟨s, rfl, hd⟩
      · exact absurd rfl (hraw [] (by simp))
      · rfl
    have hclosed : closed = raw := by
      unfold closed
      rw [if_neg (hanchored ▸ hlast)]
      exact hanchored
    rw [hclosed]

/-- Names match themselves in their final form. -/
theorem hits_settle (hraw : raw ≠ []) (hnames : ∀ s ∈ raw, s ≠ [])
    (hs : ∀ s ∈ raw, Plain s ∧ '/' ∉ s) : Hits (settle raw) (joined raw) := by
  rcases settle_of_names hnames with hsame | ⟨s, rfl, hbelow, hd⟩
  · rw [hsame]
    obtain ⟨s, rest, rfl⟩ := List.exists_cons_of_ne_nil hraw
    by_cases hd : s = deep
    · subst hd
      exact hits_collapse_deep [] (List.forall_mem_cons.mp hs).2 (.inl rfl)
    · apply hits_of_reads ?_ (collapse_ne_nil hraw) (reads_from_start hs hd)
      rw [collapse_of_ne hd]
      simpa using hd
  · rw [hbelow]
    have hread : Reads false [s] (joined [s]) := reads_one (hs s (by simp)) hd
    apply hits_above [] (.inl rfl) (by simp) hread
    · intro hany
      exact ⟨'*', by simp [List.singleton_inj.mp hany, joined], rfl⟩
    · simp

end

theorem joined_splitAt (cs : List Char) : joined (Text.splitAt '/' cs) = cs := by
  rw [Text.splitAt_eq_splitOn]
  exact List.intercalate_splitOn '/'

section
variable {line : List Char} (hplain : Plain line)
include hplain

theorem plain_of_mem_splitAt {s : List Char} (hs : s ∈ Text.splitAt '/' line) :
    Plain s ∧ '/' ∉ s :=
  ⟨⟨fun h => hplain.1 (Text.mem_of_mem_splitAt hs h),
    fun h => hplain.2 (Text.mem_of_mem_splitAt hs h)⟩, Text.not_mem_of_mem_splitAt hs⟩

/-- A line that holds names, none of them empty, is read as a pattern that matches the line. -/
theorem ofLine_itself (hnames : [] ∉ Text.splitAt '/' line) (hcomment : line.head? ≠ some '#')
    (hbang : line.head? ≠ some '!')
    (hend : ∀ c, line.getLast? = some c → Text.isBlank c = false) :
    ∃ shape, ofLine line = .ok (some ⟨false, shape⟩) ∧ (shape.hit? line).isSome := by
  have hs := fun s => plain_of_mem_splitAt hplain (s := s)
  have hfilled : ∀ s ∈ Text.splitAt '/' line, s ≠ [] := fun s hs h => hnames (h ▸ hs)
  have hne : line ≠ [] := by
    rintro rfl
    exact hnames (by simp [Text.splitAt])
  have hslash : line ≠ ['/'] := by
    rintro rfl
    exact hnames (by simp [Text.splitAt])
  obtain ⟨shape, hshape, hhit⟩ := hits_settle (Text.splitAt_ne_nil '/' line) hfilled hs
  rw [joined_splitAt] at hhit
  have hreversed : Shape.reversed shape = false := by
    rw [Bool.eq_false_iff, ne_eq, shapeOf_reversed hshape, ← exists_backward_filter, settle_filter,
      exists_backward_filter]
    rintro ⟨s, hmem, hb⟩
    exact (idle_of_plain (hs s hmem).1 (hs s hmem).2).2 hb
  refine ⟨shape, ?_, hhit⟩
  unfold ofLine
  extract_lets escapedEnd cs
  have hcs : cs = line := by
    unfold cs
    split
    · rfl
    · exact trimEnd_eq_self hend
  rw [hcs, if_neg (by simp [hne, hcomment, hslash])]
  split
  next negated body hbody =>
  obtain ⟨rfl, rfl⟩ : false = negated ∧ line = body := by
    split at hbody
    · simp at hbang
    · exact Prod.mk.inj hbody
  extract_lets raw segments
  have hlast : decide (raw.getLast? = some []) = false :=
    decide_eq_false fun h => hnames (List.mem_of_getLast? h)
  have hsegments : segments ≠ [] := by
    rw [ne_eq, settle_eq_nil_iff (Text.splitAt_ne_nil '/' line)]
    intro h
    exact hnames (by simp [h])
  rw [if_neg (by simpa using hsegments), hlast, hshape]
  simp [hreversed]

theorem plain_unnegated : Plain (unnegated line) := by
  fun_cases unnegated line with
  | case1 body =>
    exact ⟨fun h => hplain.1 (List.mem_cons_of_mem _ h), fun h => hplain.2 (List.mem_cons_of_mem _ h)⟩
  | case2 => exact hplain

/-- Only the mark of negation with nothing after it is refused where nothing is escaped and no
brackets are opened. -/
theorem not_refused_of_plain (hbare : line ≠ ['!']) (r : Refusal) : ¬ Refused line r := by
  have hidle := fun s (hs : s ∈ Text.splitAt '/' (unnegated line)) =>
    let hpiece := plain_of_mem_splitAt (plain_unnegated hplain) hs
    idle_of_plain hpiece.1 hpiece.2
  rw [refused_of_whole hbare fun s hs => (hidle s hs).1]
  rintro ⟨-, s, hs, hback⟩
  exact (hidle s hs).2 hback

end

end CodeAudit.Pattern
