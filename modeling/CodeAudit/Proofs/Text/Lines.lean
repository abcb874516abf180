import CodeAudit.Proofs.Text.Blank
import Mathlib.Data.List.Forall2
namespace CodeAudit.Text

/-- Nothing in a line ends it. -/
def IsLine (cs : List Char) : Prop := ∀ c ∈ cs, isLineBreak c = false

instance (cs : List Char) : Decidable (IsLine cs) :=
  List.decidableBAll (isLineBreak · = false) cs

theorem isLine_append {cs ds : List Char} : IsLine (cs ++ ds) ↔ IsLine cs ∧ IsLine ds :=
  List.forall_mem_append

theorem isLine_cons {c : Char} {cs : List Char} :
    IsLine (c :: cs) ↔ isLineBreak c = false ∧ IsLine cs :=
  List.forall_mem_cons

theorem isBlank_of_isLineBreak {c : Char} (h : isLineBreak c = true) : isBlank c = true := by
  simp only [isLineBreak, Bool.or_eq_true, beq_iff_eq] at h
  rcases h with ((((((((rfl | rfl) | rfl) | rfl) | rfl) | rfl) | rfl) | rfl) | rfl) | rfl <;> rfl

/-- What stands between the characters of a text that end lines. -/
def stretches (cs : List Char) : List (List Char) := cs.splitOnP isLineBreak

theorem stretches_cons (c : Char) (cs : List Char) : stretches (c :: cs) =
    if isLineBreak c then [] :: stretches cs else (stretches cs).modifyHead (c :: ·) :=
  List.splitOnP_cons_eq_if_modifyHead c cs

theorem stretches_ne_nil (cs : List Char) : stretches cs ≠ [] :=
  List.splitOnP_ne_nil isLineBreak cs

theorem stretches_of_isLine {cs : List Char} (h : IsLine cs) : stretches cs = [cs] :=
  List.splitOnP_eq_singleton h

theorem stretches_append_cons {c : Char} (hc : isLineBreak c = true) (cs ds : List Char) :
    stretches (cs ++ c :: ds) = stretches cs ++ stretches ds :=
  List.splitOnP_append_cons cs ds hc

theorem mem_of_mem_stretches {cs line : List Char} (h : line ∈ stretches cs) :
    ∀ c ∈ line, c ∈ cs := by
  induction cs generalizing line with
  | nil =>
    obtain rfl : line = [] := List.mem_singleton.mp h
    simp
  | cons d cs ih =>
    obtain ⟨first, rest, hstretches⟩ := List.exists_cons_of_ne_nil (stretches_ne_nil cs)
    rw [stretches_cons, hstretches] at h
    rw [hstretches] at ih
    intro c hc
    split at h
    · rcases List.mem_cons.mp h with rfl | h
      · cases hc
      · exact List.mem_cons_of_mem d (ih h c hc)
    · rcases List.mem_cons.mp h with rfl | h
      · rcases List.mem_cons.mp hc with rfl | hc
        · exact List.mem_cons_self
        · exact List.mem_cons_of_mem d (ih List.mem_cons_self c hc)
      · exact List.mem_cons_of_mem d (ih (List.mem_cons_of_mem first h) c hc)

theorem stretches_append {cs ds last first : List Char} {front back : List (List Char)}
    (hcs : stretches cs = front ++ [last]) (hds : stretches ds = first :: back) :
    stretches (cs ++ ds) = front ++ (last ++ first) :: back := by
  have hsame {lines others : List (List Char)} {line other : List Char}
      (h : lines ++ [line] = others ++ [other]) : lines = others ∧ line = other := by
    obtain ⟨hlines, hline⟩ := List.append_inj' h rfl
    exact ⟨hlines, List.singleton_inj.mp hline⟩
  induction cs generalizing front last with
  | nil =>
    obtain ⟨rfl, rfl⟩ := @hsame [] _ [] _ hcs
    exact hds
  | cons c cs ih =>
    obtain ⟨init, final, hinit⟩ :=
      (List.eq_nil_or_concat' (stretches cs)).resolve_left (stretches_ne_nil cs)
    rw [stretches_cons, hinit] at hcs
    rw [List.cons_append, stretches_cons, ih hinit]
    split at hcs
    · next hbreak =>
      obtain ⟨rfl, rfl⟩ := @hsame ([] :: init) _ _ _ hcs
      rw [if_pos hbreak]
      rfl
    · next hbreak =>
      rw [if_neg hbreak]
      cases init with
      | nil =>
        obtain ⟨rfl, rfl⟩ := @hsame [] _ (c :: final) _ hcs
        rfl
      | cons line init =>
        obtain ⟨rfl, rfl⟩ := @hsame ((c :: line) :: init) _ _ _ hcs
        rfl
/-- The first line of a text that has more than one. -/
theorem exists_first_line {cs : List Char} (h : ¬ IsLine cs) :
    ∃ first c back, IsLine first ∧ isLineBreak c = true ∧ cs = first ++ c :: back := by
  induction cs with
  | nil => exact absurd (List.forall_mem_nil _) h
  | cons d cs ih =>
    cases hd : isLineBreak d with
    | true => exact ⟨[], d, cs, List.forall_mem_nil _, hd, rfl⟩
    | false =>
      obtain ⟨first, c, back, hfirst, hc, rfl⟩ :=
        ih fun hcs => h (isLine_cons.mpr ⟨hd, hcs⟩)
      exact ⟨d :: first, c, back, isLine_cons.mpr ⟨hd, hfirst⟩, hc, rfl⟩

/-- The last line of a text that has more than one. -/
theorem exists_last_line {cs : List Char} (h : ¬ IsLine cs) :
    ∃ front c last, IsLine last ∧ isLineBreak c = true ∧ cs = front ++ c :: last := by
  induction cs with
  | nil => exact absurd (List.forall_mem_nil _) h
  | cons d cs ih =>
    by_cases hcs : IsLine cs
    · have hd : isLineBreak d = true :=
        Bool.of_not_eq_false fun hd => h (isLine_cons.mpr ⟨hd, hcs⟩)
      exact ⟨[], d, cs, hcs, hd, rfl⟩
    · obtain ⟨front, c, last, hlast, hc, rfl⟩ := ih hcs
      exact ⟨d :: front, c, last, hlast, hc, rfl⟩

/-- Lines with line feeds between them. -/
def joinLines (lines : List (List Char)) : List Char := ['\n'].intercalate lines

theorem stretches_joinLines {lines : List (List Char)} (hlines : lines ≠ []) :
    stretches (joinLines lines) = lines.flatMap stretches := by
  induction lines with
  | nil => exact absurd rfl hlines
  | cons line lines ih =>
    rw [List.flatMap_cons]
    by_cases hlast : lines = []
    · rw [hlast, joinLines, List.intercalate_singleton, List.flatMap_nil, List.append_nil]
    · have hjoin : joinLines (line :: lines) = line ++ '\n' :: joinLines lines := by
        rw [joinLines, List.intercalate_cons_of_ne_nil hlast, List.append_assoc]
        rfl
      rw [hjoin, stretches_append_cons (by decide), ih hlast]

theorem stretches_joinLines_of_isLine {lines : List (List Char)} (hlines : lines ≠ [])
    (h : ∀ line ∈ lines, IsLine line) : stretches (joinLines lines) = lines := by
  have hsingle : lines.flatMap stretches = lines.flatMap ([·]) :=
    List.flatMap_congr fun line hline => stretches_of_isLine (h line hline)
  rw [stretches_joinLines hlines, hsingle, List.flatMap_singleton']

/-- What is left of a line when white space is cut off at its ends. -/
def Cut (line cs : List Char) : Prop :=
  ∃ front back, line = front ++ cs ++ back ∧ front.all isBlank = true ∧ back.all isBlank = true

theorem Cut.refl (line : List Char) : Cut line line := ⟨[], [], by simp, rfl, rfl⟩

theorem Cut.trans {line cs ds : List Char} (h : Cut line cs) (h' : Cut cs ds) : Cut line ds := by
  obtain ⟨front, back, rfl, hfront, hback⟩ := h
  obtain ⟨front', back', rfl, hfront', hback'⟩ := h'
  exact ⟨front ++ front', back' ++ back, by simp, by simp [hfront, hfront'],
    by simp [hback, hback']⟩

theorem cut_trimStart (line : List Char) : Cut line (trimStart line) :=
  ⟨line.takeWhile isBlank, [], by simp [trimStart], List.all_takeWhile, rfl⟩

theorem cut_trimEnd (line : List Char) : Cut line (trimEnd line) := by
  refine ⟨[], line.rtakeWhile isBlank, ?_, rfl, ?_⟩
  · exact List.rdropWhile_append_rtakeWhile.symm
  · rw [List.rtakeWhile, List.all_reverse]
    exact List.all_takeWhile

theorem Cut.blank {line cs : List Char} (h : Cut line cs) (hcs : cs.all isBlank = true) :
    line.all isBlank = true := by
  obtain ⟨front, back, rfl, hfront, hback⟩ := h
  simp only [List.all_append, hfront, hcs, hback, Bool.and_self]

theorem cut_trim (line : List Char) : Cut line (trim line) :=
  (cut_trimStart line).trans (cut_trimEnd _)

theorem mem_trim_iff {c : Char} (hc : isBlank c = false) {cs : List Char} :
    c ∈ trim cs ↔ c ∈ cs := by
  have hnone {margin : List Char} (hmargin : margin.all isBlank = true) : c ∉ margin := by
    intro hmem
    rw [List.all_eq_true.mp hmargin c hmem] at hc
    cases hc
  obtain ⟨front, back, hcs, hfront, hback⟩ := cut_trim cs
  conv_rhs => rw [hcs]
  simp [hnone hfront, hnone hback]

theorem trimStart_append (cs ds : List Char) :
    trimStart (cs ++ ds) = if cs.all isBlank then trimStart ds else trimStart cs ++ ds := by
  rw [trimStart, List.dropWhile_append]
  by_cases h : cs.all isBlank = true
  · rw [if_pos h, if_pos (by simpa using h), trimStart]
  · rw [if_neg h, if_neg (by simpa using h), trimStart]

theorem trimEnd_append (cs ds : List Char) :
    trimEnd (cs ++ ds) = if ds.all isBlank then trimEnd cs else cs ++ trimEnd ds := by
  rw [trimEnd, List.reverse_append]
  have h := trimStart_append ds.reverse cs.reverse
  rw [trimStart, trimStart, List.all_reverse] at h
  rw [h]
  split
  · rw [trimEnd]
  · simp [trimEnd, trimStart]

theorem Cut.trim_eq {line cs : List Char} (h : Cut line cs) : trim cs = trim line := by
  by_cases hcs : cs.all isBlank = true
  · rw [(trim_eq_nil_iff cs).mpr hcs, (trim_eq_nil_iff line).mpr (h.blank hcs)]
  · obtain ⟨front, back, rfl, hfront, hback⟩ := h
    rw [List.append_assoc, trim, trim, trimStart_append front, if_pos hfront, trimStart_append cs,
      if_neg hcs, trimEnd_append, if_pos hback]

/-- From a line without white space at its ends nothing is cut off. -/
theorem Cut.eq_of_trim {line cs : List Char} (h : Cut line cs) (hline : trim line = line) :
    cs = line := by
  obtain ⟨front', back', hcs, -⟩ := cut_trim cs
  rw [h.trim_eq, hline] at hcs
  obtain ⟨front, back, hsplit, -⟩ := h
  have hlength := congrArg List.length hsplit
  have hlength' := congrArg List.length hcs
  simp only [List.length_append] at hlength hlength'
  obtain rfl : front' = [] := List.length_eq_zero_iff.mp (by omega)
  obtain rfl : back' = [] := List.length_eq_zero_iff.mp (by omega)
  simpa using hcs

/-- A text without white space at its ends begins with another character. -/
theorem head_of_trim {cs : List Char} (h : trim cs = cs) :
    ∀ c ∈ cs.head?, isBlank c = false := by
  intro c hc
  obtain ⟨rest, rfl⟩ := List.head?_eq_some_iff.mp hc
  cases hblank : isBlank c with
  | false => rfl
  | true =>
    have hcut : Cut (c :: rest) rest := ⟨[c], [], by simp, by simp [hblank], rfl⟩
    have hsame := congrArg List.length (hcut.eq_of_trim h)
    simp at hsame

/-- A text that begins and ends like texts without white space at their ends has none either. -/
theorem trim_append {front back : List Char} (hne : front ≠ []) (hne' : back ≠ [])
    (hfront : trim front = front) (hback : trim back = back) (between : List Char) :
    trim (front ++ (between ++ back)) = front ++ (between ++ back) := by
  have hstart {cs : List Char} (h : trim cs = cs) : trimStart cs = cs := by
    refine List.dropWhile_eq_self_iff.mpr fun hl => ?_
    have hhead := head_of_trim h cs[0] (List.head?_eq_getElem? ▸ List.getElem?_eq_getElem hl)
    simp [hhead]
  have hsome {cs : List Char} (h : trim cs = cs) (hne : cs ≠ []) : ¬ cs.all isBlank = true :=
    fun hblank => hne (h.symm.trans ((trim_eq_nil_iff cs).mpr hblank))
  have hend : trimEnd back = back := by
    rw [trim, hstart hback] at hback
    exact hback
  rw [trim, trimStart_append, if_neg (hsome hfront hne), hstart hfront, ← List.append_assoc,
    trimEnd_append, if_neg (hsome hback hne'), hend]

/-- What is left of one of many lines when white space is cut off at the ends of them all. -/
def Bared (lines : List (List Char)) (line cs : List Char) : Prop :=
  ∃ (front back : List (List Char)) (before after : List Char),
    lines = front ++ line :: back ∧ line = before ++ cs ++ after ∧
    before.all isBlank = true ∧ after.all isBlank = true ∧
    (before ≠ [] → ∀ other ∈ front, other.all isBlank = true) ∧
    (after ≠ [] → ∀ other ∈ back, other.all isBlank = true)

theorem Bared.cut {lines : List (List Char)} {line cs : List Char} (h : Bared lines line cs) :
    Cut line cs := by
  obtain ⟨-, -, before, after, -, hline, hbefore, hafter, -⟩ := h
  exact ⟨before, after, hline, hbefore, hafter⟩

theorem Bared.mem {lines : List (List Char)} {line cs : List Char} (h : Bared lines line cs) :
    line ∈ lines := by
  obtain ⟨front, back, -, -, rfl, -⟩ := h
  simp

theorem Bared.refl {lines : List (List Char)} {line : List Char} (h : line ∈ lines) :
    Bared lines line line := by
  obtain ⟨front, back, rfl⟩ := List.append_of_mem h
  exact ⟨front, back, [], [], rfl, by simp, rfl, rfl, by simp, by simp⟩

theorem bared_front {front : List (List Char)} {line : List Char} (h : line ∈ front)
    (hfront : ∀ other ∈ front, other.all isBlank = true) (lines : List (List Char)) :
    Bared (front ++ lines) line [] := by
  have hline := hfront line h
  obtain ⟨others, others', rfl⟩ := List.append_of_mem h
  exact ⟨others, others' ++ lines, line, [], by simp, by simp, hline, rfl,
    fun _ other hother => hfront other (by simp [hother]), by simp⟩

theorem bared_back {back : List (List Char)} {line : List Char} (h : line ∈ back)
    (hback : ∀ other ∈ back, other.all isBlank = true) (lines : List (List Char)) :
    Bared (lines ++ back) line [] := by
  have hline := hback line h
  obtain ⟨others, others', rfl⟩ := List.append_of_mem h
  exact ⟨lines ++ others, others', [], line, by simp, by simp, rfl, hline, by simp,
    fun _ other hother => hback other (by simp [hother])⟩

/-- Where white space is cut off at the ends of a text, lines are left out before and behind others
and those lose white space, all of it at the ends. -/
theorem bared_stretches_trim (cs : List Char) : ∃ front lines back,
    stretches cs = front ++ (lines ++ back) ∧ (∀ line ∈ front, Bared (stretches cs) line []) ∧
    (∀ line ∈ back, Bared (stretches cs) line []) ∧
    List.Forall₂ (Bared (stretches cs)) lines (stretches (trim cs)) := by
  obtain ⟨before, after, hcs, hbefore, hafter⟩ := cut_trim cs
  obtain ⟨front, last, hfront⟩ :=
    (List.eq_nil_or_concat' (stretches before)).resolve_left (stretches_ne_nil before)
  obtain ⟨first, back, hback⟩ := List.exists_cons_of_ne_nil (stretches_ne_nil after)
  obtain ⟨init, final, hinit⟩ :=
    (List.eq_nil_or_concat' (stretches (trim cs))).resolve_left (stretches_ne_nil _)
  have hblank {line text : List Char} (htext : text.all isBlank = true)
      (h : line ∈ stretches text) : line.all isBlank = true :=
    List.all_eq_true.mpr fun c hc =>
      List.all_eq_true.mp htext c (mem_of_mem_stretches h c hc)
  have hleft : ∀ line ∈ front ++ [last], line.all isBlank = true :=
    hfront ▸ fun _ => hblank hbefore
  have hright : ∀ line ∈ first :: back, line.all isBlank = true :=
    hback ▸ fun _ => hblank hafter
  rw [List.forall_mem_append, List.forall_mem_singleton] at hleft
  rw [List.forall_mem_cons] at hright
  have htail := stretches_append hinit hback
  rw [hinit]
  suffices h : ∃ lines, stretches cs = front ++ (lines ++ back) ∧
      List.Forall₂ (Bared (stretches cs)) lines (init ++ [final]) by
    obtain ⟨lines, hlines, hkept⟩ := h
    refine ⟨front, lines, back, hlines, ?_, ?_, hkept⟩
    · rw [hlines]
      exact fun line h => bared_front h hleft.1 _
    · rw [hlines, ← List.append_assoc]
      exact fun line h => bared_back h hright.2 _
  have hall : stretches cs = stretches (before ++ (trim cs ++ after)) := by
    rw [← List.append_assoc, ← hcs]
  cases init with
  | nil =>
    have hlines := hall.trans (stretches_append hfront htail)
    refine ⟨[last ++ (final ++ first)], hlines, .cons ?_ .nil⟩
    exact ⟨front, back, last, first, hlines, by simp, hleft.2, hright.1, fun _ => hleft.1,
      fun _ => hright.2⟩
  | cons line init =>
    have hlines : stretches cs =
        front ++ ((last ++ line) :: (init ++ [final ++ first]) ++ back) := by
      rw [hall, stretches_append hfront htail]
      simp
    have hfirst : Bared (stretches cs) (last ++ line) line :=
      ⟨front, _, last, [], hlines, by simp, hleft.2, rfl, fun _ => hleft.1, by simp⟩
    have hinner (other : List Char) (h : other ∈ init) : Bared (stretches cs) other other := by
      refine .refl ?_
      rw [hlines]
      simp [h]
    have hlast : Bared (stretches cs) (final ++ first) final :=
      ⟨front ++ (last ++ line) :: init, back, [], first, by rw [hlines]; simp, by simp, rfl,
        hright.1, by simp, fun _ => hright.2⟩
    exact ⟨_, hlines, .cons hfirst
      (List.rel_append (List.forall₂_same.mpr hinner) (.cons hlast .nil))⟩

end CodeAudit.Text
