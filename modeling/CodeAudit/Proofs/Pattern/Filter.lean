import CodeAudit.Pattern.Filter
import CodeAudit.Proofs.Pattern.LastWord
import CodeAudit.Proofs.Pattern.Reader
namespace CodeAudit

namespace Pattern

/-- Each pattern is that of a line. -/
theorem mem_ofLines {lines : List String} {patterns : List Pattern}
    (h : ofLines lines = .ok patterns) {p : Pattern} (hp : p ∈ patterns) :
    ∃ line ∈ lines, ofLine line.toList = .ok (some p) := by
  induction lines generalizing patterns with
  | nil =>
    cases h
    simp at hp
  | cons line lines ih =>
    rw [ofLines] at h
    split at h
    · cases h
    · next first hfirst =>
      obtain ⟨more, hm, rfl⟩ := map_eq_ok.mp h
      rcases List.mem_append.mp hp with hp | hp
      · obtain rfl := Option.mem_toList.mp hp
        exact ⟨line, by simp, hfirst⟩
      · obtain ⟨l, hl, ho⟩ := ih hm hp
        exact ⟨l, List.mem_cons_of_mem line hl, ho⟩

/-- A directory and what is below it are matched by texts with the same start. -/
theorem subject_below (c : Char) (dir : List Char) (hdot : c :: dir ≠ ['.']) :
    ∃ start, ∀ rest, subject (c :: dir ++ '/' :: rest) = start ++ '/' :: rest := by
  by_cases hslash : c = '/'
  · subst hslash
    exact ⟨dir, fun rest => rfl⟩
  · cases dir with
    | nil =>
      refine ⟨[c], fun rest => ?_⟩
      have hc : c ≠ '.' := by simpa using hdot
      simp [subject, hslash, hc]
    | cons d dir =>
      by_cases hd : c = '.' ∧ d = '/'
      · obtain ⟨rfl, rfl⟩ := hd
        exact ⟨dir, fun rest => rfl⟩
      · refine ⟨c :: d :: dir, fun rest => ?_⟩
        unfold subject
        split
        · next he => simp_all
        · next he => simp_all
        · rfl

theorem turned_ne_dot {dir : String} (h : dir ≠ ".") : turned dir ≠ ['.'] := by
  intro ht
  obtain ⟨c, hs, hc⟩ := List.map_eq_singleton_iff.mp ht
  by_cases hb : c = '\\'
  · simp [hb] at hc
  · rw [if_neg hb] at hc
    subst hc
    apply h
    rw [← String.ofList_toList (s := dir), hs]

theorem turned_append (a b : String) : turned (a ++ b) = turned a ++ turned b := by
  simp [turned]

/-- As `Shape.hit_below`, for all patterns of some lines. -/
theorem hit_below_of_ofLines {lines : List String} {patterns : List Pattern}
    (h : ofLines lines = .ok patterns)
    (hb : ∀ p ∈ patterns, p.shape.hasSlashBracket = false) (start rest : List Char)
    (hs : ∃ p ∈ patterns, (p.shape.hit? (start ++ ['/'])).isSome) :
    ∃ p ∈ patterns, (p.shape.hit? (start ++ '/' :: rest)).isSome := by
  obtain ⟨p, hp, hhit⟩ := hs
  obtain ⟨line, -, hline⟩ := mem_ofLines h hp
  exact ⟨p, hp, p.shape.hit_below (ofLine_endsInName hline (hb p hp)) start rest hhit⟩

end Pattern

namespace IgnoreFilter
open Pattern

theorem ofLines_patterns {lines : List String} {f : IgnoreFilter} (h : ofLines lines = .ok f) :
    Pattern.ofLines (clean lines) = .ok f.patterns := by
  rw [ofLines] at h
  obtain ⟨patterns, hp, rfl⟩ := map_eq_ok.mp h
  exact hp

/-- Whether a text begins with a parent step is settled before what is below a directory. -/
private theorem outside_below (c : Char) (dir rest : List Char) :
    ['.', '.', '/'].isPrefixOf (c :: dir ++ '/' :: rest) =
      ['.', '.', '/'].isPrefixOf (c :: dir ++ ['/']) := by
  match dir with
  | [] => simp [List.isPrefixOf]
  | [d] => simp [List.isPrefixOf]
  | d :: e :: dir => simp [List.isPrefixOf]

/-- What is left out below a directory that is left out is what the patterns pick out of it, where
they pick out the directory itself. -/
theorem ignores_below (f : IgnoreFilter) (dir : String) (hne : dir ≠ "") (hdot : dir ≠ ".")
    (h : f.ignores (dir ++ "/") = true) (rest : String) :
    ∃ start, subject (turned (dir ++ "/" ++ rest)) = start ++ '/' :: turned rest ∧
      verdict f.patterns (start ++ ['/']) = true ∧
      f.ignores (dir ++ "/" ++ rest) = verdict f.patterns (start ++ '/' :: turned rest) := by
  have ht : turned dir ≠ [] := by simpa [turned] using hne
  obtain ⟨c, more, hc⟩ := List.exists_cons_of_ne_nil ht
  obtain ⟨start, hstart⟩ := subject_below c more (hc ▸ turned_ne_dot hdot)
  have hdir : turned (dir ++ "/") = c :: more ++ ['/'] := by
    rw [turned_append, hc]
    rfl
  have hbelow : turned (dir ++ "/" ++ rest) = c :: more ++ '/' :: turned rest := by
    rw [turned_append, hdir]
    simp
  simp only [ignores, hdir, hbelow, hstart, outside_below c more (turned rest)] at h ⊢
  split at h
  · exact absurd h Bool.false_ne_true
  · next hout => exact ⟨start, rfl, h, if_neg hout⟩

end IgnoreFilter
end CodeAudit
