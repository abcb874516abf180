import CodeAudit.Proofs.Pattern.Filter
import CodeAudit.Proofs.Pattern.LastWord
namespace CodeAudit.Pattern
variable {cs : List Char} {p q : Pattern} {before after patterns : List Pattern}

theorem LastWord.mem (h : LastWord patterns cs p) : p ∈ patterns := by
  obtain ⟨earlier, later, rfl, -⟩ := h
  simp

theorem LastWord.hit (h : LastWord patterns cs p) : (p.shape.hit? cs).isSome := by
  obtain ⟨-, -, -, ⟨hp, -⟩ | ⟨hp, -⟩⟩ := h
  · simp [hp]
  · simp [hp]

theorem LastWord.fewer {earlier later fewer least : List Pattern}
    (hp : p.shape.hit? cs = some .file ∧ (∀ q ∈ later, q.shape.hit? cs ≠ some .file) ∨
      p.shape.hit? cs = some .directory ∧ (∀ q ∈ later, q.shape.hit? cs = none) ∧
        ∀ q ∈ earlier, q.shape.hit? cs ≠ some .file)
    (he : fewer ⊆ earlier) (hl : least ⊆ later) : LastWord (fewer ++ p :: least) cs p := by
  refine ⟨fewer, least, rfl, ?_⟩
  rcases hp with ⟨hfile, hlater⟩ | ⟨hdirectory, hlater, hearlier⟩
  · exact .inl ⟨hfile, fun q hq => hlater q (hl hq)⟩
  · exact .inr ⟨hdirectory, fun q hq => hlater q (hl hq), fun q hq => hearlier q (he hq)⟩

/-- What has the last word in two lists one after the other has it in one of them. -/
theorem LastWord.of_append (h : LastWord (before ++ after) cs p) :
    LastWord before cs p ∨ LastWord after cs p := by
  obtain ⟨earlier, later, hsplit, hp⟩ := h
  rcases List.append_eq_append_iff.mp hsplit with ⟨middle, rfl, rfl⟩ | ⟨middle, rfl, hlast⟩
  · exact .inr (.fewer hp (List.subset_append_right before middle) (List.Subset.refl later))
  · rcases List.cons_eq_append_iff.mp hlast with ⟨rfl, rfl⟩ | ⟨rest, rfl, rfl⟩
    · exact .inr (.fewer hp (List.nil_subset _) (List.Subset.refl later))
    · exact .inl (.fewer hp (List.Subset.refl earlier) (List.subset_append_left rest after))

theorem LastWord.of_flatten {layers : List (List Pattern)} (h : LastWord layers.flatten cs p) :
    ∃ layer ∈ layers, LastWord layer cs p := by
  induction layers with
  | nil => exact absurd h.mem (by simp)
  | cons first rest ih =>
    rw [List.flatten_cons] at h
    rcases h.of_append with h | h
    · exact ⟨first, by simp, h⟩
    · obtain ⟨layer, hl, h⟩ := ih h
      exact ⟨layer, List.mem_cons_of_mem first hl, h⟩

/-- What has the last word keeps it when another pattern is taken away. -/
theorem LastWord.erase (h : LastWord (before ++ q :: after) cs p) :
    p = q ∨ LastWord (before ++ after) cs p := by
  obtain ⟨earlier, later, hsplit, hp⟩ := h
  rcases List.append_eq_append_iff.mp hsplit with ⟨middle, rfl, hafter⟩ | ⟨middle, rfl, hlast⟩
  · rcases List.cons_eq_append_iff.mp hafter with ⟨rfl, he⟩ | ⟨rest, rfl, rfl⟩
    · exact .inl (List.cons.inj he).1
    · right
      rw [← List.append_assoc]
      refine .fewer hp ?_ (List.Subset.refl later)
      exact List.append_subset.mpr ⟨List.subset_append_left _ _,
        List.Subset.trans (List.subset_cons_self q rest) (List.subset_append_right _ _)⟩
  · rcases List.cons_eq_append_iff.mp hlast with ⟨rfl, he⟩ | ⟨rest, rfl, rfl⟩
    · exact .inl (List.cons.inj he).1.symm
    · right
      rw [List.append_assoc, List.cons_append]
      refine .fewer hp (List.Subset.refl earlier) ?_
      exact List.append_subset.mpr ⟨List.subset_append_left _ _,
        List.Subset.trans (List.subset_cons_self q after) (List.subset_append_right _ _)⟩

/-- One more pattern that is not negated takes nothing out of what patterns pick out. -/
theorem verdict_insert (hq : q.negated = false) (h : verdict (before ++ after) cs = true) :
    verdict (before ++ q :: after) cs = true := by
  obtain ⟨p, hp, -⟩ := verdict_iff.mp h
  have hsome : ∃ r ∈ before ++ q :: after, (r.shape.hit? cs).isSome := by
    refine ⟨p, ?_, hp.hit⟩
    have hmem := hp.mem
    simp only [List.mem_append, List.mem_cons] at hmem ⊢
    exact hmem.imp_right .inr
  obtain ⟨r, hr⟩ := exists_lastWord hsome
  refine verdict_iff.mpr ⟨r, hr, ?_⟩
  rcases hr.erase with rfl | hold
  · exact hq
  · simpa [hold.verdict_eq] using h

theorem clean_append (lines more : List String) :
    clean (lines ++ more) = clean lines ++ clean more := by
  simp [clean]

theorem ofLines_append {lines more : List String} :
    ofLines (lines ++ more) = .ok patterns ↔
      ∃ first last, ofLines lines = .ok first ∧ ofLines more = .ok last ∧
        patterns = first ++ last := by
  induction lines generalizing patterns with
  | nil => simp [ofLines]
  | cons line lines ih =>
    rw [List.cons_append, ofLines, ofLines]
    cases ofLine line.toList with
    | error r => simp
    | ok p =>
      dsimp only
      constructor
      · intro h
        obtain ⟨rest, hrest, rfl⟩ := map_eq_ok.mp h
        obtain ⟨first, last, hf, hl, rfl⟩ := ih.mp hrest
        exact ⟨_, last, map_eq_ok.mpr ⟨first, hf, rfl⟩, hl, by simp⟩
      · intro h
        obtain ⟨first, last, hf, hl, rfl⟩ := h
        obtain ⟨rest, hrest, rfl⟩ := map_eq_ok.mp hf
        exact map_eq_ok.mpr ⟨_, ih.mpr ⟨rest, last, hrest, hl, rfl⟩, by simp⟩

end CodeAudit.Pattern
