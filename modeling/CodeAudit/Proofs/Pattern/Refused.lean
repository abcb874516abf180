import CodeAudit.Proofs.Pattern.Layers
import CodeAudit.Proofs.Pattern.Stops
import CodeAudit.Proofs.Text.Blank
namespace CodeAudit.Pattern
variable {segments : List (List Char)} {e : Stop}

/-- A line without the mark of negation in front. -/
def unnegated : List Char → List Char
  | '!' :: body => body
  | line => line

/-- The lines that are refused: a mark of negation with nothing after it, one with a segment that
ends in the middle of an escape before any bracket is left open, and one with a range from a later
to an earlier character and no segment left incomplete. -/
inductive Refused (line : List Char) : Refusal → Prop
  | bare (h : line = ['!']) : Refused line .malformed
  | unfinished (h : FirstFails Whole Unfinished (Text.splitAt '/' (unnegated line))) :
      Refused line .malformed
  | backward (hw : ∀ s ∈ Text.splitAt '/' (unnegated line), Whole s)
      (hb : ∃ s ∈ Text.splitAt '/' (unnegated line), Backward s) : Refused line .reversedRange

theorem settle_eq_nil_iff {raw : List (List Char)} (hne : raw ≠ []) :
    settle raw = [] ↔ raw = [[]] := by
  constructor
  · intro h
    unfold settle at h
    extract_lets anchored closed at h
    have hclosed : closed = [] := by
      rw [← List.getLast?_eq_none_iff, ← getLast?_collapse, h]
      rfl
    have hanchored : anchored = [] := by
      unfold closed at hclosed
      split at hclosed
      · simp at hclosed
      · exact hclosed
    unfold anchored at hanchored
    split at hanchored
    · rw [hanchored]
    · split at hanchored <;> simp at hanchored
    · split at hanchored <;> simp at hanchored
    · exact absurd hanchored hne
  · intro h
    subst h
    rfl

theorem splitAt_eq_singleton_nil {cs : List Char} : Text.splitAt '/' cs = [[]] ↔ cs = [] := by
  cases cs with
  | nil => simp [Text.splitAt]
  | cons c cs =>
    rw [Text.splitAt]
    split
    · simp [Text.splitAt_ne_nil]
    · split <;> simp

theorem trimEnd_eq_self {cs : List Char} (h : ∀ c, cs.getLast? = some c → Text.isBlank c = false) :
    Text.trimEnd cs = cs := by
  rw [Text.trimEnd, List.reverse_eq_iff]
  cases hr : cs.reverse with
  | nil => rfl
  | cons c rest =>
    have hc : Text.isBlank c = false := by
      apply h
      rw [← List.head?_reverse, hr]
      rfl
    rw [List.dropWhile_cons_of_neg (by simp [hc])]

section
variable {line : List Char} {r : Refusal}

theorem unnegated_eq_nil_iff (hne : line ≠ []) : unnegated line = [] ↔ line = ['!'] := by
  fun_cases unnegated line with
  | case1 body => simp
  | case2 _ hbang => exact iff_of_false hne fun h => hbang [] h

/-- What a complete line is refused for is a range. -/
theorem refused_of_whole (hbare : line ≠ ['!'])
    (hw : ∀ s ∈ Text.splitAt '/' (unnegated line), Whole s) :
    Refused line r ↔
      r = .reversedRange ∧ ∃ s ∈ Text.splitAt '/' (unnegated line), Backward s := by
  constructor
  · intro h
    cases h with
    | bare h => exact absurd h hbare
    | unfinished h => exact absurd hw (not_whole_of_stops (stops_openEscape_iff.mpr h))
    | backward hw hb => exact ⟨rfl, hb⟩
  · intro h
    obtain ⟨rfl, hb⟩ := h
    exact .backward hw hb

/-- What a line that is not complete is refused for is an escape. -/
theorem refused_of_stops (hbare : line ≠ ['!'])
    (h : Stops e (Text.splitAt '/' (unnegated line))) :
    Refused line r ↔ r = .malformed ∧ e = .openEscape := by
  constructor
  · intro hr
    cases hr with
    | bare hb => exact absurd hb hbare
    | unfinished hu => exact ⟨rfl, stops_unique h (stops_openEscape_iff.mpr hu)⟩
    | backward hw hb => exact absurd hw (not_whole_of_stops h)
  · intro hr
    obtain ⟨rfl, rfl⟩ := hr
    exact .unfinished (stops_openEscape_iff.mp h)

theorem refused_bare : Refused ['!'] r ↔ r = .malformed := by
  have hidle : (Text.splitAt '/' (unnegated ['!'])).filter tells = [] := rfl
  constructor
  · intro h
    cases h with
    | bare h => rfl
    | unfinished h => rfl
    | backward hw hb =>
      rw [← exists_backward_filter, hidle] at hb
      simp at hb
  · intro h
    subst h
    exact .bare rfl

/-- A slash on its own asks for nothing and is not refused. -/
theorem not_refused_slash : ¬ Refused ['/'] r := by
  have hidle : (Text.splitAt '/' (unnegated ['/'])).filter tells = [] := rfl
  have hw : ∀ s ∈ Text.splitAt '/' (unnegated ['/']), Whole s := by
    intro s hs
    exact (idle_of_not_tells (by simpa using List.filter_eq_nil_iff.mp hidle s hs)).1
  rw [refused_of_whole (by decide) hw, ← exists_backward_filter, hidle]
  simp

/-- What a line that is neither blank nor a comment, and has no white space at its end, is refused
for. -/
theorem ofLine_error_iff (hne : line ≠ []) (hcomment : line.head? ≠ some '#')
    (hend : ∀ c, line.getLast? = some c → Text.isBlank c = false) :
    ofLine line = .error r ↔ Refused line r := by
  unfold ofLine
  extract_lets escapedEnd cs
  have hcs : cs = line := by
    unfold cs
    split
    · rfl
    · exact trimEnd_eq_self hend
  rw [hcs]
  by_cases hslash : line = ['/']
  · subst hslash
    exact iff_of_false (by simp) not_refused_slash
  rw [if_neg (by simp [hne, hcomment, hslash])]
  split
  next negated body hbody =>
  obtain rfl : body = unnegated line := by
    fun_cases unnegated line with
    | case1 more =>
      cases hbody
      rfl
    | case2 _ hbang =>
      split at hbody
      · next more => exact absurd rfl (hbang more)
      · cases hbody
        rfl
  extract_lets raw segments
  have hempty : segments = [] ↔ line = ['!'] := by
    rw [settle_eq_nil_iff (Text.splitAt_ne_nil '/' _), splitAt_eq_singleton_nil,
      unnegated_eq_nil_iff hne]
  have hstops (e : Stop) : Stops e segments ↔ Stops e raw := by
    rw [← stops_filter, settle_filter, stops_filter]
  have hback : (∃ s ∈ segments, Backward s) ↔ ∃ s ∈ raw, Backward s := by
    rw [← exists_backward_filter, settle_filter, exists_backward_filter]
  by_cases hbare : line = ['!']
  · rw [if_pos (by simp [hempty, hbare]), hbare, refused_bare]
    simp [eq_comm]
  · rw [if_neg (by simp [hempty, hbare])]
    cases hshape : shapeOf (raw.getLast? = some []) segments with
    | error e =>
      rw [refused_of_stops hbare ((hstops e).mp (shapeOf_error_iff.mp hshape))]
      cases e <;> simp [eq_comm]
    | ok shape =>
      have hw : ∀ s ∈ raw, Whole s := by
        refine (whole_or_stops raw).resolve_right fun h => ?_
        obtain ⟨e, he⟩ := h
        cases hshape.symm.trans (shapeOf_error_iff.mpr ((hstops e).mpr he))
      have hrev := shapeOf_reversed hshape
      rw [refused_of_whole hbare hw, ← hback, ← hrev]
      by_cases hr : Shape.reversed shape = true
      · simp only [hr, if_true, Except.error.injEq, and_true]
        exact eq_comm
      · simp [hr]

end

/-- The first line that is refused, and what for. -/
def FirstRefused (r : Refusal) (lines : List String) : Prop :=
  FirstFails (fun line => ∀ r, ¬ Refused line.toList r) (fun line => Refused line.toList r) lines

theorem ofLine_clean {lines : List String} {line : String} (h : line ∈ clean lines) {r : Refusal} :
    ofLine line.toList = .error r ↔ Refused line.toList r := by
  obtain ⟨hmem, hkept⟩ := List.mem_filter.mp h
  obtain ⟨written, -, rfl⟩ := List.mem_map.mp hmem
  obtain ⟨hne, hcomment⟩ : Text.strip written ≠ "" ∧
      (Text.strip written).toList.head? ≠ some '#' := by simpa using hkept
  exact ofLine_error_iff (by simpa using hne) hcomment fun c hc => Text.strip_last hc

/-- Lines are refused for the first of them that is. -/
theorem ofLines_error_iff {lines kept : List String} (hk : kept ⊆ clean lines) {r : Refusal} :
    ofLines kept = .error r ↔ FirstRefused r kept := by
  induction kept with
  | nil => exact iff_of_false (by simp [ofLines]) firstFails_nil
  | cons line rest ih =>
    obtain ⟨hline, hrest⟩ := List.cons_subset.mp hk
    have hread (r : Refusal) := ofLine_clean hline (r := r)
    rw [FirstRefused, firstFails_cons, ← hread, ofLines]
    cases hl : ofLine line.toList with
    | error q => simp [← hread, hl]
    | ok p => simp [← hread, hl, map_eq_error, ih hrest, FirstRefused]

theorem fine_or_firstRefused (lines : List String) :
    (∀ line ∈ lines, ∀ r, ¬ Refused line.toList r) ∨ ∃ r, FirstRefused r lines := by
  apply all_or_firstFails
  intro line
  by_cases h : ∃ r, Refused line.toList r
  · exact .inr h
  · exact .inl (not_exists.mp h)

theorem FirstRefused.not_all {lines : List String} {r : Refusal} (h : FirstRefused r lines) :
    ¬ ∀ line ∈ lines, ∀ r, ¬ Refused line.toList r :=
  FirstFails.not_all h fun _ hfine => hfine r

/-- What fails exactly for the first refused line comes to an answer if none is refused. -/
theorem ok_iff_of_error_iff {α : Type} {x : Except Refusal α} {lines : List String}
    (hx : ∀ r, x = .error r ↔ FirstRefused r lines) :
    (∃ a, x = .ok a) ↔ ∀ line ∈ lines, ∀ r, ¬ Refused line.toList r := by
  constructor
  · intro h
    obtain ⟨a, ha⟩ := h
    refine (fine_or_firstRefused lines).resolve_right fun h => ?_
    obtain ⟨r, hr⟩ := h
    cases ha.symm.trans ((hx r).mpr hr)
  · intro h
    cases ha : x with
    | error r => exact absurd h ((hx r).mp ha).not_all
    | ok a => exact ⟨a, rfl⟩

end CodeAudit.Pattern
