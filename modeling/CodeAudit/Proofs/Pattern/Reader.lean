import CodeAudit.Pattern.Reader
import CodeAudit.Proofs.Path.Names
import CodeAudit.Proofs.Pattern.Below
import CodeAudit.Proofs.Steps
namespace CodeAudit

/-- A bracket that can stand for a slash. -/
def Glob.standsForSlash : Glob → Bool
  | .range negated ranges => inRanges ranges '/' != negated
  | _ => false

/-- Whether some bracket of a pattern can stand for a slash. -/
def Shape.hasSlashBracket : Shape → Bool
  | parts globs _ => globs.any Glob.standsForSlash
  | _ => false

theorem Shape.hasSlashBracket_parts (globs : List Glob) (finish : Finish) :
    (parts globs finish).hasSlashBracket = false ↔ ∀ g ∈ globs, g.standsForSlash = false := by
  simp [hasSlashBracket]

namespace Pattern

theorem inName_literal {c : Char} (hc : c ≠ '/') : (Glob.literal c).InName := by
  intro taken h
  subst h
  simpa using hc.symm

theorem inName_range {negated : Bool} {ranges : List (Char × Char)}
    (h : (Glob.range negated ranges).standsForSlash = false) :
    (Glob.range negated ranges).InName := by
  intro taken h hm
  obtain ⟨c, rfl, hc⟩ := h
  obtain rfl := List.mem_singleton.mp hm
  rw [Glob.standsForSlash, hc] at h
  exact Bool.noConfusion h

theorem inName_one : Glob.one.InName := by
  intro taken h hm
  obtain ⟨c, rfl, hc⟩ := h
  obtain rfl := List.mem_singleton.mp hm
  simp [Glob.isInName] at hc

theorem inName_many : Glob.many.InName := by
  intro taken h hm
  simpa [Glob.isInName] using h '/' hm

theorem inName_some : Glob.some.InName := fun taken h => inName_many taken h.2

theorem splitBracket_suffix {cs inner rest : List Char}
    (h : splitBracket cs = some (inner, rest)) : rest <:+ cs := by
  induction cs generalizing inner with
  | nil => simp [splitBracket] at h
  | cons d cs ih =>
    unfold splitBracket at h
    split at h
    · simp at *
    · next he =>
      cases h
      cases he
      exact List.suffix_cons _ _
    · next he =>
      cases he
      obtain ⟨⟨i, r⟩, hs, he⟩ := Option.map_eq_some_iff.mp h
      cases he
      exact (ih hs).trans (List.suffix_cons _ _)

/-- As `splitBracket_suffix`, where a closing bracket in the first place stands for itself. -/
private theorem inner_suffix {body inner rest : List Char}
    (h : (match body with
      | ']' :: more => (splitBracket more).map fun (inner, rest) => (']' :: inner, rest)
      | body => splitBracket body) = some (inner, rest)) : rest <:+ body := by
  split at h
  · obtain ⟨⟨i, r⟩, hs, he⟩ := Option.map_eq_some_iff.mp h
    cases he
    exact (splitBracket_suffix hs).trans (List.suffix_cons _ _)
  · exact splitBracket_suffix h

/-- A bracket is read from the front of a text. -/
theorem bracket_suffix {cs rest : List Char} {g : Glob} (h : bracket cs = some (g, rest)) :
    rest <:+ cs ∧ ∃ negated ranges, g = .range negated ranges := by
  unfold bracket at h
  obtain ⟨⟨inner, left⟩, hsplit, he⟩ := Option.map_eq_some_iff.mp h
  cases he
  refine ⟨(inner_suffix hsplit).trans ?_, _, _, rfl⟩
  split
  · exact List.suffix_cons _ _
  · exact List.suffix_cons _ _
  · exact List.suffix_rfl

/-- A piece is read from the front of a segment, and stays within a name unless it is a bracket
that can stand for a slash. -/
theorem globsFrom_cons {n : Nat} {c : Char} {cs : List Char} {gs : List Glob}
    (h : globsFrom (n + 1) (c :: cs) = .ok gs) (hs : '/' ∉ c :: cs) :
    ∃ g rest more, gs = g :: more ∧ rest <:+ cs ∧ globsFrom n rest = .ok more ∧
      (g.standsForSlash = false → g.InName) := by
  unfold globsFrom at h
  split at h
  · next hn => cases hn
  · next he _ => cases he
  · cases h
  · next d more hn he =>
    cases hn
    cases he
    obtain ⟨left, hm, rfl⟩ := map_eq_ok.mp h
    have hd : d ≠ '/' := by
      intro h
      subst h
      simp at hs
    exact ⟨_, more, left, rfl, List.suffix_cons _ _, hm, fun _ => inName_literal hd⟩
  · next hn he =>
    cases hn
    cases he
    obtain ⟨left, hm, rfl⟩ := map_eq_ok.mp h
    exact ⟨_, _, left, rfl, List.suffix_rfl, hm, fun _ => inName_many⟩
  · next hn he =>
    cases hn
    cases he
    obtain ⟨left, hm, rfl⟩ := map_eq_ok.mp h
    exact ⟨_, _, left, rfl, List.suffix_rfl, hm, fun _ => inName_one⟩
  · next hn he =>
    cases hn
    cases he
    split at h
    · cases h
    · next g rest hb =>
      obtain ⟨left, hm, rfl⟩ := map_eq_ok.mp h
      obtain ⟨hrest, negated, ranges, rfl⟩ := bracket_suffix hb
      exact ⟨_, rest, left, rfl, hrest, hm, inName_range⟩
  · next hn he =>
    cases hn
    cases he
    obtain ⟨left, hm, rfl⟩ := map_eq_ok.mp h
    have hc : c ≠ '/' := by
      intro h
      subst h
      simp at hs
    exact ⟨_, _, left, rfl, List.suffix_rfl, hm, fun _ => inName_literal hc⟩

theorem globsFrom_inName (n : Nat) (cs : List Char) (gs : List Glob)
    (h : globsFrom n cs = .ok gs) (hs : '/' ∉ cs) :
    ∀ g ∈ gs, g.standsForSlash = false → g.InName := by
  induction n generalizing cs gs with
  | zero =>
    cases h
    simp
  | succ n ih =>
    cases cs with
    | nil =>
      cases h
      simp
    | cons c cs =>
      obtain ⟨g, rest, more, rfl, hrest, hm, hg⟩ := globsFrom_cons h hs
      have hno : '/' ∉ rest := fun hr => hs (List.mem_cons_of_mem c (hrest.subset hr))
      exact List.forall_mem_cons.mpr ⟨hg, ih rest more hm hno⟩

/-- A segment that holds something is read as pieces of a name. -/
theorem segment_inName {cs : List Char} {gs : List Glob} (h : segment cs = .ok gs)
    (hs : '/' ∉ cs) (hne : cs ≠ []) :
    gs ≠ [] ∧ ∀ g ∈ gs, g.standsForSlash = false → g.InName := by
  rw [segment] at h
  split at h
  · cases h
    simp [inName_some]
  · refine ⟨?_, globsFrom_inName _ cs gs h hs⟩
    obtain ⟨c, cs, rfl⟩ := List.exists_cons_of_ne_nil hne
    obtain ⟨g, rest, more, rfl, -⟩ := globsFrom_cons h hs
    simp

private theorem last_below {s : List Char} {rest : List (List Char)} (hr : rest ≠ [])
    (h : (s :: rest).getLast? ≠ some []) : rest.getLast? ≠ some [] := by
  obtain ⟨t, more, rfl⟩ := List.exists_cons_of_ne_nil hr
  rwa [List.getLast?_cons_cons] at h

/-- Segments of which the last holds something are read as pieces that end in a name, or that ask
for more below a directory. -/
theorem partsFrom_endsInName {directory needsSlash : Bool} {segments : List (List Char)}
    {globs : List Glob} {finish : Finish}
    (h : partsFrom directory needsSlash segments = .ok (globs, finish)) (hne : segments ≠ [])
    (hs : ∀ s ∈ segments, '/' ∉ s) (hlast : segments.getLast? ≠ some [])
    (hb : ∀ g ∈ globs, g.standsForSlash = false) : (Shape.parts globs finish).EndsInName := by
  induction needsSlash, segments using partsFrom.induct generalizing globs finish with
  | case1 needsSlash => exact absurd rfl hne
  | case2 needsSlash =>
    rw [partsFrom, if_pos rfl] at h
    cases h
    trivial
  | case3 needsSlash s hd =>
    rw [partsFrom, if_neg hd] at h
    obtain ⟨own, hown, he⟩ := map_eq_ok.mp h
    cases he
    have hsne : s ≠ [] := by
      intro h
      subst h
      exact hlast rfl
    obtain ⟨hone, hin⟩ := segment_inName hown (hs s (by simp)) hsne
    have hends : (Shape.parts own .whole).EndsInName := by
      refine ⟨[], own, rfl, hone, fun g hg => hin g hg (hb g ?_)⟩
      cases needsSlash <;> simp [hg]
    cases needsSlash with
    | true => exact hends.prepend [.literal '/']
    | false => exact hends
  | case4 needsSlash rest hr ih =>
    rw [partsFrom, if_pos rfl] at h
    · obtain ⟨⟨more, last⟩, hmore, he⟩ := map_eq_ok.mp h
      cases he
      obtain ⟨-, hb⟩ := List.forall_mem_cons.mp hb
      exact (ih hmore hr (List.forall_mem_cons.mp hs).2 (last_below hr hlast) hb).prepend
        [.between]
    · exact hr
  | case5 needsSlash s rest hr hd ih =>
    rw [partsFrom, if_neg hd] at h
    · obtain ⟨own, hown, h⟩ := bind_eq_ok.mp h
      obtain ⟨⟨more, last⟩, hmore, he⟩ := map_eq_ok.mp h
      cases he
      have hb' : ∀ g ∈ more, g.standsForSlash = false :=
        fun g hg => hb g (List.mem_append_right _ hg)
      exact (ih hmore hr (List.forall_mem_cons.mp hs).2 (last_below hr hlast) hb').prepend _
    · exact hr

theorem mem_collapse {s : List Char} {segments : List (List Char)} (h : s ∈ collapse segments) :
    s ∈ segments := by
  induction segments with
  | nil => exact h
  | cons t rest ih =>
    rw [collapse] at h
    split at h
    · exact List.mem_cons_of_mem t (ih h)
    · rcases List.mem_cons.mp h with rfl | h
      · simp
      · exact List.mem_cons_of_mem t (ih h)

theorem getLast?_collapse (segments : List (List Char)) :
    (collapse segments).getLast? = segments.getLast? := by
  induction segments with
  | nil => rfl
  | cons t rest ih =>
    rw [collapse]
    split
    · next hd =>
      have hne : rest ≠ [] := by
        intro h
        subst h
        simp at hd
      obtain ⟨s, more, rfl⟩ := List.exists_cons_of_ne_nil hne
      rw [ih, List.getLast?_cons_cons]
    · rw [List.getLast?_cons, ih, List.getLast?_cons]

private theorem deep_no_slash : '/' ∉ deep := by decide

/-- The segments of a pattern in their final form are its own and double asterisks, and the last
one holds something. -/
theorem settle_segments {raw : List (List Char)} (hr : ∀ s ∈ raw, '/' ∉ s) :
    (∀ s ∈ settle raw, '/' ∉ s) ∧ (settle raw).getLast? ≠ some [] := by
  unfold settle
  extract_lets anchored closed
  have hanchored : ∀ s ∈ anchored, '/' ∉ s := by
    unfold anchored
    split
    · exact (List.forall_mem_cons.mp hr).2
    · split
      · exact hr
      · exact List.forall_mem_cons.mpr ⟨deep_no_slash, hr⟩
    · split
      · exact hr
      · exact List.forall_mem_cons.mpr ⟨deep_no_slash, hr⟩
    · exact hr
  have hclosed : (∀ s ∈ closed, '/' ∉ s) ∧ closed.getLast? ≠ some [] := by
    unfold closed
    split
    · refine ⟨fun s hm => ?_, by simp [deep]⟩
      rcases List.mem_append.mp hm with hm | hm
      · exact hanchored s (List.dropLast_subset _ hm)
      · exact List.mem_singleton.mp hm ▸ deep_no_slash
    · next hl => exact ⟨hanchored, hl⟩
  refine ⟨fun s hm => hclosed.1 s (mem_collapse hm), ?_⟩
  rw [getLast?_collapse]
  exact hclosed.2

theorem shapeOf_endsInName {directory : Bool} {segments : List (List Char)} {shape : Shape}
    (h : shapeOf directory segments = .ok shape) (hne : segments ≠ [])
    (hs : ∀ s ∈ segments, '/' ∉ s) (hlast : segments.getLast? ≠ some [])
    (hb : shape.hasSlashBracket = false) : shape.EndsInName := by
  unfold shapeOf at h
  split at h
  · cases h
    split <;> trivial
  · split at h
    · cases h
      trivial
    · split at h
      · cases h
        trivial
      · cases segments with
        | nil => exact absurd rfl hne
        | cons s rest =>
          dsimp only at h
          split at h
          · next hdeep _ _ hd =>
            subst hd
            obtain ⟨⟨globs, finish⟩, hp, rfl⟩ := map_eq_ok.mp h
            have hr : rest ≠ [] := by
              intro h
              subst h
              exact hdeep rfl
            obtain ⟨-, hb⟩ := List.forall_mem_cons.mp ((Shape.hasSlashBracket_parts _ _).mp hb)
            exact (partsFrom_endsInName hp hr (List.forall_mem_cons.mp hs).2
              (last_below hr hlast) hb).prepend [.above]
          · obtain ⟨⟨globs, finish⟩, hp, rfl⟩ := map_eq_ok.mp h
            exact partsFrom_endsInName hp hne hs hlast
              ((Shape.hasSlashBracket_parts _ _).mp hb)

/-- A line that holds a pattern is read so that the pattern, unless a bracket in it can stand for a
slash, ends in a name or asks for more below a directory. -/
theorem ofLine_endsInName {line : List Char} {p : Pattern} (h : ofLine line = .ok (some p))
    (hb : p.shape.hasSlashBracket = false) : p.shape.EndsInName := by
  unfold ofLine at h
  extract_lets escapedEnd cs at h
  split at h
  · cases h
  · split at h
    next negated body _ =>
    extract_lets raw segments at h
    have hraw : ∀ s ∈ raw, '/' ∉ s := fun s => Text.not_mem_of_mem_splitAt
    obtain ⟨hs, hlast⟩ := settle_segments hraw
    split at h
    · cases h
    · next hne =>
      split at h
      · cases h
      · cases h
      · next s hshape =>
        split at h
        · cases h
        · cases h
          exact shapeOf_endsInName hshape (by simpa using hne) hs hlast hb

end Pattern
end CodeAudit
