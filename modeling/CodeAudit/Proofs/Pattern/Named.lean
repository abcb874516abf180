import CodeAudit.Proofs.Pattern.Layers
import CodeAudit.Proofs.Pattern.Spelling
namespace CodeAudit

theorem Glob.spells_literals (cs taken : List Char) :
    Spells (cs.map .literal) taken ↔ taken = cs := by
  induction cs generalizing taken with
  | nil => rfl
  | cons c cs ih =>
    constructor
    · intro h
      obtain ⟨first, others, rfl, hc, h⟩ := h
      rw [(ih others).mp h, hc]
      rfl
    · intro h
      exact ⟨[c], cs, h, rfl, (ih cs).mpr rfl⟩

/-- Without a further slash, only a pattern that looks for whole paths is done, at the end. -/
theorem Finish.of_isSome {finish : Finish} {cs : List Char} (h : (finish.hit? cs).isSome)
    (hcs : '/' ∉ cs) : finish = .whole ∧ (cs = [] ∨ cs = ['\n']) := by
  unfold Finish.hit? at h
  split at h
  · exact absurd List.mem_cons_self hcs
  · exact ⟨rfl, .inl rfl⟩
  · exact ⟨rfl, .inr rfl⟩
  · cases h
  · exact absurd List.mem_cons_self hcs
  · cases h

namespace Shape
variable {cs : List Char}

/-- What a line with nothing but a name looks for: the name, wherever it stands. -/
def named (name : String) : Shape := .parts (.above :: name.toList.map .literal) .whole

/-- Whether a pattern looks for what lies below a directory only. -/
def descends : Shape → Bool
  | parts _ (.inside _) => true
  | _ => false

theorem hit?_of_descends {s : Shape} (hs : s.descends = true) (hcs : '/' ∉ cs) :
    s.hit? cs = none := by
  rw [← Option.not_isSome_iff_eq_none]
  intro h
  unfold descends at hs
  split at hs
  · next globs directory =>
    rw [hit?, Glob.takeAll_isSome] at h
    obtain ⟨taken, rest, rfl, -, hrest⟩ := h
    have hslash : '/' ∉ rest := fun hm => hcs (List.mem_append_right taken hm)
    exact absurd (Finish.of_isSome hrest hslash).1 (by simp)
  · cases hs

/-- Among names by themselves, a pattern with a name picks out this name, also before a line end. -/
theorem named_hit_iff (name : String) (hcs : '/' ∉ cs) :
    ((named name).hit? cs).isSome ↔ cs = name.toList ∨ cs = name.toList ++ ['\n'] := by
  rw [named, hit?, Glob.takeAll_isSome]
  constructor
  · intro h
    obtain ⟨taken, rest, rfl, ⟨above, own, rfl, habove, hown⟩, hrest⟩ := h
    obtain rfl := (Glob.spells_literals _ _).mp hown
    rw [List.mem_append, List.mem_append, not_or, not_or] at hcs
    obtain ⟨⟨hdirs, -⟩, hslash⟩ := hcs
    have hnone : above = [] := by
      rcases habove with rfl | ⟨dirs, -, rfl, -⟩
      · rfl
      · exact absurd (List.mem_append_right dirs List.mem_cons_self) hdirs
    subst hnone
    rcases (Finish.of_isSome hrest hslash).2 with rfl | rfl
    · exact .inl (by simp)
    · exact .inr rfl
  · intro h
    have hspells : Glob.Spells (.above :: name.toList.map .literal) name.toList :=
      ⟨[], name.toList, rfl, .inl rfl, (Glob.spells_literals _ _).mpr rfl⟩
    rcases h with rfl | rfl
    · exact ⟨name.toList, [], by simp, hspells, rfl⟩
    · exact ⟨name.toList, ['\n'], rfl, hspells, rfl⟩

end Shape

/-- Patterns of which none is negated pick out whatever one of them matches. -/
theorem Pattern.verdict_of_positive {patterns : List Pattern}
    (hp : ∀ p ∈ patterns, p.negated = false) (cs : List Char) :
    verdict patterns cs = true ↔ ∃ p ∈ patterns, (p.shape.hit? cs).isSome := by
  rw [verdict_iff]
  constructor
  · intro h
    obtain ⟨p, hlast, -⟩ := h
    exact ⟨p, hlast.mem, hlast.hit⟩
  · intro h
    obtain ⟨p, hlast⟩ := exists_lastWord h
    exact ⟨p, hlast, hp p hlast.mem⟩

end CodeAudit
