import CodeAudit.Process.Group
import CodeAudit.Proofs.Number.Order
namespace CodeAudit.Group

theorem mem_aliveAt {ms : List Member} {time : Double} {m : Member} :
    m ∈ aliveAt ms time ↔ m ∈ ms ∧ time.lt m.lifetime = true := by
  rw [aliveAt, List.mem_filter]

theorem mem_deafAt {g : Group} {time : Double} {m : Member} :
    m ∈ g.deafAt time ↔ m ∈ g.members ∧ time.lt m.lifetime = true ∧ m.ignoresTerm = true := by
  rw [deafAt, List.mem_filter, mem_aliveAt, and_assoc]

/-- The last end of some members is passed exactly by what all of them have passed. -/
theorem lastEnd_lt_iff {ms : List Member} {time x : Double} (ht : time ≠ .nan)
    (hms : ∀ m ∈ ms, m.lifetime ≠ .nan) :
    (lastEnd ms time).lt x = true ↔ time.lt x = true ∧ ∀ m ∈ ms, m.lifetime.lt x = true := by
  induction ms generalizing time with
  | nil => simp [lastEnd]
  | cons m ms ih =>
    obtain ⟨hm, hrest⟩ := List.forall_mem_cons.mp hms
    have hlater : (if time.lt m.lifetime then m.lifetime else time) ≠ .nan := by
      split
      · exact hm
      · exact ht
    rw [lastEnd, List.foldl_cons, ← lastEnd, ih hlater hrest, Double.max_lt_iff ht hm,
      List.forall_mem_cons, and_assoc]

/-- A member that is not reached when its group is ended. It ignores the request to end and holds no
pipe, and all that is waited for ends on that request, or by itself within the delay and before
it. -/
structure Escapes (g : Group) (time grace : Double) (m : Member) : Prop where
  isWorker : m ∈ g.workers
  isDeaf : m.ignoresTerm = true
  isDetached : m.holdsPipes = false
  outlives : time.lt m.lifetime = true
  isGiven : grace.le .zero = false
  outwaits : ∀ a ∈ g.awaited, a.ignoresTerm = true → time.lt a.lifetime = true →
    (time.add grace).lt a.lifetime = false ∧ a.lifetime.lt m.lifetime = true

/-- The members that are waited for after a request to end. -/
theorem mem_waited {g : Group} {time : Double} {a : Member} :
    a ∈ (aliveAt g.awaited time).filter (·.ignoresTerm) ↔
      a ∈ g.awaited ∧ a.ignoresTerm = true ∧ time.lt a.lifetime = true := by
  rw [List.mem_filter, mem_aliveAt, and_assoc]
  exact and_congr_right' and_comm

/-- What is not waited for is a worker that holds no pipe. -/
theorem worker_of_not_awaited {g : Group} {m : Member} (hm : m ∈ g.members)
    (hnot : m ∉ g.awaited) : m ∈ g.workers ∧ m.holdsPipes = false := by
  rcases List.mem_cons.mp hm with rfl | hm
  · exact absurd List.mem_cons_self hnot
  · refine ⟨hm, ?_⟩
    rw [← Bool.not_eq_true]
    intro hholds
    exact hnot (List.mem_cons_of_mem _ (List.mem_filter.mpr ⟨hm, hholds⟩))

/-- What is left of a group that is ended are the members that are not reached. -/
theorem mem_terminate_iff {g : Group} {time grace : Double} {m : Member} :
    m ∈ g.terminate time grace ↔ g.Escapes time grace m := by
  have hnumbers : ∀ a ∈ (aliveAt g.awaited time).filter (·.ignoresTerm), a.lifetime ≠ .nan :=
    fun a ha => (Double.lt_iff.mp (mem_waited.mp ha).2.2).2.1
  unfold terminate
  dsimp only
  split
  · next hgiven =>
    obtain ⟨hgrace, hgone⟩ := Bool.and_eq_true_iff.mp hgiven
    simp only [List.all_eq_true, Bool.not_eq_true'] at hgrace hgone
    rw [mem_aliveAt, mem_deafAt]
    constructor
    · intro h
      obtain ⟨⟨hm, halive, hdeaf⟩, hlast⟩ := h
      have ht := (Double.lt_iff.mp halive).1
      have hpassed := ((lastEnd_lt_iff ht hnumbers).mp hlast).2
      have hnot : m ∉ g.awaited := by
        intro hawaited
        have hself := hpassed m (mem_waited.mpr ⟨hawaited, hdeaf, halive⟩)
        rw [Double.lt_irrefl] at hself
        cases hself
      obtain ⟨hworker, hdetached⟩ := worker_of_not_awaited hm hnot
      refine ⟨hworker, hdeaf, hdetached, halive, hgrace, fun a ha hadeaf haalive => ?_⟩
      have hwaited := mem_waited.mpr ⟨ha, hadeaf, haalive⟩
      exact ⟨hgone a hwaited, hpassed a hwaited⟩
    · intro h
      have ht := (Double.lt_iff.mp h.outlives).1
      refine ⟨⟨List.mem_cons_of_mem _ h.isWorker, h.outlives, h.isDeaf⟩, ?_⟩
      refine (lastEnd_lt_iff ht hnumbers).mpr ⟨h.outlives, fun a ha => ?_⟩
      obtain ⟨ha, hadeaf, haalive⟩ := mem_waited.mp ha
      exact (h.outwaits a ha hadeaf haalive).2
  · next hover =>
    refine iff_of_false (by simp) fun h => hover ?_
    rw [h.isGiven, Bool.not_false, Bool.true_and, List.all_eq_true]
    intro a ha
    obtain ⟨ha, hadeaf, haalive⟩ := mem_waited.mp ha
    rw [(h.outwaits a ha hadeaf haalive).1]
    rfl

/-- Nothing is left of a group whose workers all end when they are asked to, or hold a pipe. -/
theorem terminate_eq_nil {g : Group} (hw : ∀ m ∈ g.workers, m.ignoresTerm = true →
    m.holdsPipes = true) (time grace : Double) : g.terminate time grace = [] := by
  refine List.eq_nil_iff_forall_not_mem.mpr fun m hm => ?_
  have h := mem_terminate_iff.mp hm
  have hholds := hw m h.isWorker h.isDeaf
  rw [h.isDetached] at hholds
  cases hholds

end CodeAudit.Group
