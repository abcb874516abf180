import CodeAudit.Analyzer.Precheck
import CodeAudit.Proofs.Text.Lines
namespace CodeAudit.Install
open Text

/-- How an alternative begins. -/
def mark : List Char := "(or:".toList

section
variable {front rest other margin : List Char}

/-- An alternative goes on to the last bracket before white space. -/
theorem isAlternative_of_mark (hother : '\n' ∉ other) (hmargin : margin.all isBlank = true) :
    isAlternative (mark ++ (other ++ ')' :: margin)) = true := by
  have hend : trimEnd (other ++ ')' :: margin) = other ++ [')'] := by
    have hclosed : ¬ [')'].all isBlank = true := by decide
    rw [← List.singleton_append, ← List.append_assoc, trimEnd_append, if_pos hmargin,
      trimEnd_append, if_neg hclosed]
    rfl
  have hdrop : (mark ++ (other ++ ')' :: margin)).drop 4 = other ++ ')' :: margin := rfl
  have hprefix : "(or:".toList.isPrefixOf (mark ++ (other ++ ')' :: margin)) = true :=
    List.isPrefixOf_iff_prefix.mpr (List.prefix_append mark _)
  rw [isAlternative, hdrop, hend, hprefix, List.getLast?_concat, List.dropLast_concat]
  simpa using hother

theorem isAlternative_of_not_prefix (h : ¬ mark <+: rest) : isAlternative rest = false := by
  have hprefix : "(or:".toList.isPrefixOf rest = false := by
    rw [← Bool.not_eq_true, List.isPrefixOf_iff_prefix]
    exact h
  rw [isAlternative, hprefix]
  rfl

/-- No mark begins in a text without one, if what follows cannot go on with it. -/
theorem not_mark_prefix (hne : front ≠ []) (hfront : ¬ mark <+: front)
    (hrest : ∀ c ∈ rest.head?, c ∉ mark.tail) : ¬ mark <+: front ++ rest := by
  intro hmark
  rcases List.prefix_or_prefix_of_prefix hmark (List.prefix_append front rest) with h | h
  · exact hfront h
  · obtain ⟨back, hback⟩ := h
    rw [← hback, List.prefix_append_right_inj] at hmark
    cases back with
    | nil =>
      rw [List.append_nil] at hback
      exact hfront (hback ▸ List.prefix_rfl)
    | cons c back =>
      obtain ⟨more, rfl⟩ := hmark
      apply hrest c rfl
      rw [← hback, List.tail_append_of_ne_nil hne]
      simp

theorem withoutAlternative_append (hfront : ¬ mark <:+: front)
    (hrest : ∀ c ∈ rest.head?, c ∉ mark.tail) :
    withoutAlternative (front ++ rest) = front ++ withoutAlternative rest := by
  induction front with
  | nil => rfl
  | cons c front ih =>
    have hhere : ¬ mark <+: (c :: front) ++ rest :=
      not_mark_prefix (List.cons_ne_nil c front) (fun h => hfront h.isInfix) hrest
    have hlater : ¬ mark <:+: front := fun h => hfront (List.infix_cons h)
    rw [List.cons_append, withoutAlternative, ← List.cons_append,
      isAlternative_of_not_prefix hhere, if_neg Bool.false_ne_true, ih hlater]
    rfl

theorem withoutAlternative_of_not_infix (h : ¬ mark <:+: front) :
    withoutAlternative front = front := by
  have happend : withoutAlternative (front ++ []) = front ++ withoutAlternative [] :=
    withoutAlternative_append h (by simp)
  rwa [List.append_nil, withoutAlternative, List.append_nil] at happend

/-- No mark stands in white space. -/
theorem not_mark_infix_of_blank (h : margin.all isBlank = true) : ¬ mark <:+: margin := by
  intro hmark
  have hblank := List.all_eq_true.mp h '(' (hmark.subset List.mem_cons_self)
  exact absurd hblank (by decide)

theorem withoutAlternative_mark (hother : '\n' ∉ other) (hmargin : margin.all isBlank = true) :
    withoutAlternative (mark ++ (other ++ ')' :: margin)) = [] := by
  have hcons : mark ++ (other ++ ')' :: margin) =
      '(' :: (mark.tail ++ (other ++ ')' :: margin)) := rfl
  rw [hcons, withoutAlternative, ← hcons, isAlternative_of_mark hother hmargin, if_pos rfl]

/-- An alternative at the end and the white space around it leave no trace. -/
theorem trim_withoutAlternative {command gap : List Char} (hcommand : ¬ mark <:+: command)
    (hgap : gap.all isBlank = true) (hother : '\n' ∉ other)
    (hmargin : margin.all isBlank = true) :
    trim (withoutAlternative (command ++ (gap ++ (mark ++ (other ++ ')' :: margin))))) =
      trim command := by
  have hhead : ∀ c ∈ (mark ++ (other ++ ')' :: margin)).head?, c ∉ mark.tail := by
    intro c hc
    cases hc
    decide
  have hhead' : ∀ c ∈ (gap ++ (mark ++ (other ++ ')' :: margin))).head?, c ∉ mark.tail := by
    cases gap with
    | nil => exact hhead
    | cons d gap =>
      intro c hc hmem
      cases hc
      rw [List.all_cons, Bool.and_eq_true] at hgap
      have hnone : mark.tail.all (!isBlank ·) = true := by decide
      have hsolid := List.all_eq_true.mp hnone d hmem
      rw [hgap.1] at hsolid
      cases hsolid
  rw [withoutAlternative_append hcommand hhead',
    withoutAlternative_append (not_mark_infix_of_blank hgap) hhead,
    withoutAlternative_mark hother hmargin, List.append_nil]
  have hcut : Cut (command ++ gap) command := ⟨[], gap, rfl, rfl, hgap⟩
  exact hcut.trim_eq.symm

end

theorem argv_eq (hint : String) :
    argv hint = if '|' ∈ trim (withoutAlternative hint.toList) then
      .ok ["bash", "-c", String.ofList (trim (withoutAlternative hint.toList))]
    else words (String.ofList (trim (withoutAlternative hint.toList))) := by
  simp only [argv, List.contains_iff_mem]

/-- The command of a hint is what it is without the alternative that ends the hint, whatever stands
in the alternative: a shell is called for a pipe in the command alone, and where there is none the
words and their faults are those of the command. -/
theorem argv_alternative (command gap other margin : String)
    (hcommand : ¬ "(or:".toList <:+: command.toList) (hgap : blank gap = true)
    (hother : '\n' ∉ other.toList) (hmargin : blank margin = true) :
    let hint := command ++ gap ++ "(or:" ++ other ++ ")" ++ margin
    argv hint = argv command ∧
    ('|' ∈ command.toList → argv hint = .ok ["bash", "-c", strip command]) ∧
    ('|' ∉ command.toList → argv hint = words (strip command)) ∧
    ∀ (h : Host) (a : Analyzer),
      h.install { a with installHint := hint } = h.install { a with installHint := command } := by
  intro hint
  have hchars : hint.toList = command.toList ++ (gap.toList ++ (mark ++
      (other.toList ++ ')' :: margin.toList))) := by
    simp [hint, mark]
  have hsame : argv hint = argv command := by
    rw [argv_eq, argv_eq, hchars, trim_withoutAlternative hcommand hgap hother hmargin,
      withoutAlternative_of_not_infix hcommand]
  refine ⟨hsame, ?_, ?_, ?_⟩
  · intro hpipe
    rw [hsame, argv_eq, withoutAlternative_of_not_infix hcommand,
      if_pos ((mem_trim_iff (by decide)).mpr hpipe), strip]
  · intro hpipe
    rw [hsame, argv_eq, withoutAlternative_of_not_infix hcommand,
      if_neg (mt (mem_trim_iff (by decide)).mp hpipe), strip]
  · intro h a
    rw [Host.install, Host.install]
    dsimp only
    rw [hsame]
    rfl

/-- An alternative with another one, a pipe, brackets and half a pair of quotes in it. -/
theorem argv_alternative_unbalanced :
    ¬ "(or:".toList <:+: "pipx install ruff".toList ∧
      '\n' ∉ " curl 'x) | (or: sh) y".toList ∧
      argv ("pipx install ruff" ++ " \t" ++ "(or:" ++ " curl 'x) | (or: sh) y" ++ ")" ++ "\n") =
        .ok ["pipx", "install", "ruff"] := by
  have hcommand : ¬ "(or:".toList <:+: "pipx install ruff".toList := by
    intro h
    have hbracket : '(' ∈ "pipx install ruff".toList := h.subset List.mem_cons_self
    exact absurd hbracket (by decide)
  have hother : '\n' ∉ " curl 'x) | (or: sh) y".toList := by decide
  have hsplit : words (strip "pipx install ruff") = .ok ["pipx", "install", "ruff"] := by cbv
  obtain ⟨-, -, hwords, -⟩ := argv_alternative "pipx install ruff" " \t" " curl 'x) | (or: sh) y"
    "\n" hcommand (by decide) hother (by decide)
  exact ⟨hcommand, hother, (hwords (by decide)).trans hsplit⟩

end CodeAudit.Install
