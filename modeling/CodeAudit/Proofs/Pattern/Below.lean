import CodeAudit.Proofs.Pattern.Spelling
namespace CodeAudit

namespace Glob

/-- A piece that stays within a name. -/
def InName (g : Glob) : Prop := ∀ taken, g.Takes taken → '/' ∉ taken

theorem many_of_takes_nil {g : Glob} (hg : g.InName) (h : g.Takes []) : g = many := by
  cases g with
  | literal d => simp [Takes] at h
  | one => simp [Takes] at h
  | many => rfl
  | some => exact absurd rfl h.1
  | range negated ranges => simp [Takes] at h
  | above =>
    have ht : above.Takes ['.', '/'] := .inr ⟨['.'], by simp, rfl, by simp [isInLine]⟩
    exact absurd (by simp) (hg _ ht)
  | between =>
    have ht : between.Takes ['/', '.'] := .inr ⟨['.'], by simp, rfl, by simp [isInLine]⟩
    exact absurd (by simp) (hg _ ht)

theorem not_mem_of_spells {gs : List Glob} (hgs : ∀ g ∈ gs, g.InName) {taken : List Char}
    (h : Spells gs taken) : '/' ∉ taken := by
  induction gs generalizing taken with
  | nil =>
    obtain rfl := h
    simp
  | cons g gs ih =>
    obtain ⟨first, others, rfl, hg, h⟩ := h
    obtain ⟨hin, hgs⟩ := List.forall_mem_cons.mp hgs
    rw [List.mem_append, not_or]
    exact ⟨hin first hg, ih hgs h⟩

/-- Pieces of a name that can stand for nothing can stand for any name. -/
theorem spells_name {gs : List Glob} (hne : gs ≠ []) (hgs : ∀ g ∈ gs, g.InName)
    (h : Spells gs []) (name : List Char) (hn : '/' ∉ name) : Spells gs name := by
  obtain ⟨g, gs, rfl⟩ := List.exists_cons_of_ne_nil hne
  obtain ⟨first, others, hnil, hg, hothers⟩ := h
  obtain ⟨rfl, rfl⟩ := List.nil_eq_append_iff.mp hnil
  obtain rfl := many_of_takes_nil (hgs g (by simp)) hg
  refine ⟨name, [], by simp, ?_, hothers⟩
  intro c hc
  have hne : c ≠ '/' := by
    intro h
    subst h
    exact hn hc
  simpa [isInName] using hne

end Glob

/-- What is below a directory can follow wherever the slash after the directory can end. -/
theorem Finish.hit_below (finish : Finish) (dir rest : List Char)
    (h : (finish.hit? (dir ++ ['/'])).isSome) : (finish.hit? (dir ++ '/' :: rest)).isSome := by
  cases finish with
  | whole =>
    cases dir with
    | nil => rfl
    | cons c dir =>
      by_cases hc : c = '/'
      · subst hc
        rfl
      · cases dir <;> simp [Finish.hit?, hc] at h
  | inside directory =>
    cases dir with
    | nil => rfl
    | cons c dir =>
      by_cases hc : c = '/'
      · subst hc
        rfl
      · simp [Finish.hit?, hc] at h

namespace Shape

/-- The pieces before a path's end are those of a name. -/
def EndsInName : Shape → Prop
  | parts globs .whole => ∃ front last, globs = front ++ last ∧ last ≠ [] ∧ ∀ g ∈ last, g.InName
  | _ => True

theorem EndsInName.prepend {globs : List Glob} {finish : Finish} (front : List Glob)
    (h : (parts globs finish).EndsInName) : (parts (front ++ globs) finish).EndsInName := by
  cases finish with
  | whole =>
    obtain ⟨more, last, rfl, hne, hlast⟩ := h
    exact ⟨front ++ more, last, by simp, hne, hlast⟩
  | inside directory => trivial

/-- Where a directory's slash is still to come after what was taken up, so is what follows it. -/
private theorem hit_after (globs : List Glob) (finish : Finish) (taken dir rest : List Char)
    (hg : Glob.Spells globs taken) (hf : (finish.hit? (dir ++ ['/'])).isSome) :
    ((parts globs finish).hit? (taken ++ dir ++ '/' :: rest)).isSome := by
  rw [hit?, Glob.takeAll_isSome]
  exact ⟨taken, dir ++ '/' :: rest, by simp, hg, finish.hit_below dir rest hf⟩

/-- Where a name's pieces are done, the path ends or goes on below a directory. -/
private theorem hit_name_end (rest : List Char) :
    (Finish.whole.hit? (rest.dropWhile (· != '/'))).isSome := by
  cases hd : rest.dropWhile (· != '/') with
  | nil => rfl
  | cons c cs =>
    have hc := List.head?_dropWhile_not (· != '/') rest
    rw [hd] at hc
    obtain rfl : c = '/' := by simpa using hc
    rfl

/-- Where all of a directory's text was taken up, slash and all, a name's pieces at the end stand
for nothing yet, and can go on to take up the next name. -/
private theorem hit_within (front last : List Glob) (hne : last ≠ [])
    (hlast : ∀ g ∈ last, g.InName) (dir rest : List Char)
    (hg : Glob.Spells (front ++ last) (dir ++ ['/'])) :
    ((parts (front ++ last) .whole).hit? (dir ++ '/' :: rest)).isSome := by
  obtain ⟨first, others, hsplit, hf, hl⟩ := (Glob.spells_append _ _ _).mp hg
  have hno := Glob.not_mem_of_spells hlast hl
  have hnil : others = [] := by
    rcases List.eq_nil_or_concat others with h | ⟨others, c, rfl⟩
    · exact h
    · rw [List.concat_eq_append, ← List.append_assoc] at hsplit
      obtain ⟨-, hc⟩ := List.append_inj' hsplit rfl
      obtain rfl := (List.cons.inj hc).1
      simp at hno
  subst hnil
  rw [List.append_nil] at hsplit
  subst hsplit
  have hname : '/' ∉ rest.takeWhile (· != '/') := by
    intro h
    have hall : (rest.takeWhile (· != '/')).all (· != '/') = true := List.all_takeWhile
    have hc := List.all_eq_true.mp hall '/' h
    simp at hc
  rw [hit?, Glob.takeAll_isSome]
  refine ⟨dir ++ ['/'] ++ rest.takeWhile (· != '/'), rest.dropWhile (· != '/'), ?_, ?_,
    hit_name_end rest⟩
  · simp
  · exact (Glob.spells_append _ _ _).mpr ⟨_, _, rfl, hf, Glob.spells_name hne hlast hl _ hname⟩

/-- What matches a directory matches all that is below it. -/
theorem hit_below (s : Shape) (hs : s.EndsInName) (dir rest : List Char)
    (h : (s.hit? (dir ++ ['/'])).isSome) : (s.hit? (dir ++ '/' :: rest)).isSome := by
  cases s with
  | anything => simp [hit?, Glob.isInLine]
  | slash directory => simp [hit?]
  | parts globs finish =>
    rw [hit?, Glob.takeAll_isSome] at h
    obtain ⟨taken, left, hsplit, hg, hf⟩ := h
    rcases List.eq_nil_or_concat left with rfl | ⟨left, c, rfl⟩
    · cases finish with
      | inside directory => simp [Finish.hit?] at hf
      | whole =>
        obtain ⟨front, last, rfl, hne, hlast⟩ := hs
        rw [List.append_nil] at hsplit
        exact hit_within front last hne hlast dir rest (hsplit ▸ hg)
    · rw [List.concat_eq_append] at hsplit hf
      rw [← List.append_assoc] at hsplit
      obtain ⟨rfl, hc⟩ := List.append_inj' hsplit rfl
      obtain rfl := (List.cons.inj hc).1
      exact hit_after globs finish taken left rest hg hf

end Shape
end CodeAudit
