import CodeAudit.Proofs.Run.Still
import CodeAudit.Proofs.Run.Telling
import CodeAudit.Run.Schedule
namespace CodeAudit

section
variable {α : Type} {answers : Nat → Option α}

/-- What comes in for some slots, each of which has an answer or none. -/
def arrivalsOf (answers : Nat → Option α) (slots : List Nat) : List (Nat × α) :=
  slots.filterMap fun i => (answers i).map fun a => (i, a)

theorem arrivalsOf_none {i : Nat} (ha : answers i = none) (rest : List Nat) :
    arrivalsOf answers (i :: rest) = arrivalsOf answers rest := by
  simp [arrivalsOf, ha]

theorem arrivalsOf_some {i : Nat} {a : α} (ha : answers i = some a) (rest : List Nat) :
    arrivalsOf answers (i :: rest) = (i, a) :: arrivalsOf answers rest := by
  simp [arrivalsOf, ha]

/-- A slot holds what came in for it, and nothing else is touched. -/
theorem deliver_getElem? (slots : List Nat) (held : List (Option α)) (j : Nat)
    (hj : j < held.length) :
    (deliver held (arrivalsOf answers slots))[j]? =
      if j ∈ slots ∧ (answers j).isSome = true then some (answers j) else held[j]? := by
  induction slots generalizing held with
  | nil => simp [arrivalsOf, deliver]
  | cons i rest ih =>
    cases ha : answers i with
    | none =>
      rw [arrivalsOf_none ha, ih held hj]
      by_cases hi : j = i
      · subst hi
        simp [ha]
      · simp [hi]
    | some a =>
      rw [arrivalsOf_some ha]
      change (deliver (held.set i (some a)) (arrivalsOf answers rest))[j]? = _
      rw [ih (held.set i (some a)) (by simpa using hj)]
      by_cases hi : j = i
      · subst hi
        simp [ha, hj]
      · simp [hi, Ne.symm hi]

theorem deliver_length (held : List (Option α)) (arrivals : List (Nat × α)) :
    (deliver held arrivals).length = held.length := by
  induction arrivals generalizing held with
  | nil => rfl
  | cons first rest ih =>
    have hrest := ih (held.set first.1 (some first.2))
    rwa [List.length_set] at hrest

/-- In whatever order the answers of some items come in, they are collected in the order of the
items, none of them lost and none twice. -/
theorem collect_arrivals {β : Type} (items : List β) (f : β → α) (slots : List Nat)
    (hslots : ∀ j < items.length, j ∈ slots) :
    collect items.length (arrivalsOf (fun i => items[i]?.map f) slots) = items.map f := by
  have hdelivered : deliver (List.replicate items.length none)
      (arrivalsOf (fun i => items[i]?.map f) slots) = items.map fun b => some (f b) := by
    apply List.ext_getElem?
    intro j
    by_cases hj : j < items.length
    · rw [deliver_getElem? _ _ j (by simpa using hj), if_pos ⟨hslots j hj, by simp [hj]⟩]
      simp [hj]
    · have hnone : items.length ≤ j := Nat.le_of_not_lt hj
      rw [List.getElem?_eq_none (by simpa [deliver_length] using hnone),
        List.getElem?_eq_none (by simpa using hnone)]
  rw [collect, hdelivered]
  simp

end

namespace Host
open Act
variable (h : Host) (target : Path) (o : RunOptions) (scheduled : List Scheduled)

/-- What an analyzer comes to when nothing runs before it. -/
def alone (w : World) (s : Scheduled) : Outcome :=
  told { tool := s.analyzer.name, duration := h.elapsed s.analyzer.name
         fixSkipped := o.fix && s.analyzer.supportsFix && !s.config.allowsFix }
    ((h.invokeWithScratch s.analyzer s.config target o).on w).1

/-- The world after the runs of some slots, one after the other. -/
def afterSlots (slots : List Nat) (w : World) : World :=
  ((h.runSlots target o scheduled slots).on w).2

/-- Whichever others run before it, each at most once, an analyzer comes to the same. -/
def Independent (w : World) : Prop :=
  ∀ i s, scheduled[i]? = some s → ∀ others, (i :: others).Nodup →
    h.alone target o (h.afterSlots target o scheduled others w) s = h.alone target o w s

theorem runOne_alone (s : Scheduled) (w : World) :
    ((h.runOne target o s).on w).1 = .ok (h.alone target o w s) := by
  rw [runOne, runTool_on]
  rfl

theorem runOne_on (s : Scheduled) (w : World) :
    (h.runOne target o s).on w = (.ok (h.alone target o w s), ((h.runOne target o s).on w).2) :=
  Prod.ext (h.runOne_alone target o s w) rfl

variable {scheduled} {w : World} {i : Nat} {s : Scheduled}

theorem runSlots_none (hs : scheduled[i]? = none) (rest : List Nat) :
    h.runSlots target o scheduled (i :: rest) = h.runSlots target o scheduled rest := by
  rw [runSlots, hs]

theorem runSlots_some (hs : scheduled[i]? = some s) (rest : List Nat) :
    (h.runSlots target o scheduled (i :: rest)).on w =
      let v := ((h.runOne target o s).on w).2
      (((h.runSlots target o scheduled rest).on v).1.map ((i, h.alone target o w s) :: ·),
        h.afterSlots target o scheduled rest v) := by
  rw [runSlots, hs]
  dsimp only
  rw [on_bind_ok (h.runOne_on target o s w), on_bind_pure, afterSlots]

theorem afterSlots_none (hs : scheduled[i]? = none) (rest : List Nat) :
    h.afterSlots target o scheduled (i :: rest) w = h.afterSlots target o scheduled rest w := by
  rw [afterSlots, runSlots_none h target o hs rest, afterSlots]

theorem afterSlots_some (hs : scheduled[i]? = some s) (rest : List Nat) :
    h.afterSlots target o scheduled (i :: rest) w =
      h.afterSlots target o scheduled rest ((h.runOne target o s).on w).2 := by
  rw [afterSlots, runSlots_some h target o hs rest]

theorem afterSlots_append (before rest : List Nat) :
    h.afterSlots target o scheduled (before ++ rest) w =
      h.afterSlots target o scheduled rest (h.afterSlots target o scheduled before w) := by
  induction before generalizing w with
  | nil => rfl
  | cons i before ih =>
    rw [List.cons_append]
    cases hs : scheduled[i]? with
    | none => rw [afterSlots_none h target o hs, afterSlots_none h target o hs, ih]
    | some s => rw [afterSlots_some h target o hs, afterSlots_some h target o hs, ih]

/-- Each slot that is run comes to what it comes to by itself. -/
theorem runSlots_alone (hown : h.Independent target o scheduled w) (done slots : List Nat)
    (hn : (done ++ slots).Nodup) :
    ((h.runSlots target o scheduled slots).on (h.afterSlots target o scheduled done w)).1 =
      .ok (arrivalsOf (fun i => scheduled[i]?.map (h.alone target o w)) slots) := by
  induction slots generalizing done with
  | nil => rfl
  | cons i rest ih =>
    have hrest := ih (done ++ [i]) (by simpa using hn)
    rw [afterSlots_append] at hrest
    have hfresh : (i :: done).Nodup := by
      obtain ⟨hdone, -, hapart⟩ := List.nodup_append.mp hn
      exact List.nodup_cons.mpr ⟨fun hmem => hapart i hmem i List.mem_cons_self rfl, hdone⟩
    cases hs : scheduled[i]? with
    | none =>
      rw [afterSlots_none h target o hs] at hrest
      rw [runSlots_none h target o hs, arrivalsOf_none (by rw [hs]; rfl)]
      exact hrest
    | some s =>
      rw [afterSlots_some h target o hs] at hrest
      rw [runSlots_some h target o hs]
      dsimp only
      have hrest' : ((h.runSlots target o scheduled rest).on
          ((h.runOne target o s).on (h.afterSlots target o scheduled done w)).2).1 = _ := hrest
      rw [hrest', hown i s hs done hfresh, arrivalsOf_some (by rw [hs]; rfl)]
      rfl

theorem runInTurn_alone (hown : h.Independent target o scheduled w) (before rest : List Scheduled)
    (hsplit : scheduled = before ++ rest) :
    ((h.runInTurn target o rest).on
      (h.afterSlots target o scheduled (List.range before.length) w)).1 =
        .ok (rest.map (h.alone target o w)) := by
  induction rest generalizing before with
  | nil => rfl
  | cons s rest ih =>
    have hs : scheduled[before.length]? = some s := by simp [hsplit]
    have hrest := ih (before ++ [s]) (by simp [hsplit])
    rw [List.length_append, List.length_singleton, List.range_succ, afterSlots_append,
      afterSlots_some h target o hs] at hrest
    have hrest' : ((h.runInTurn target o rest).on ((h.runOne target o s).on
        (h.afterSlots target o scheduled (List.range before.length) w)).2).1 = _ := hrest
    have hfresh : (before.length :: List.range before.length).Nodup :=
      List.nodup_cons.mpr ⟨by simp, List.nodup_range⟩
    rw [runInTurn, on_bind_ok (h.runOne_on target o s _), on_bind_pure, hrest',
      hown _ s hs (List.range before.length) hfresh]
    rfl

theorem runTogether_alone (hown : h.Independent target o scheduled w)
    (hends : (h.finishing scheduled.length).Perm (List.range scheduled.length)) :
    ((h.runTogether target o scheduled).on w).1 = .ok (scheduled.map (h.alone target o w)) := by
  have hn : (h.finishing scheduled.length).Nodup := hends.nodup_iff.mpr List.nodup_range
  have hall : ∀ j < scheduled.length, j ∈ h.finishing scheduled.length :=
    fun j hj => hends.mem_iff.mpr (List.mem_range.mpr hj)
  have harrivals := h.runSlots_alone target o hown [] (h.finishing scheduled.length) hn
  have harrivals' : ((h.runSlots target o scheduled (h.finishing scheduled.length)).on w).1 = _ :=
    harrivals
  rw [runTogether, on_bind_pure, harrivals']
  exact congrArg Except.ok (collect_arrivals scheduled (h.alone target o w) _ hall)

theorem runTools_ok (hown : h.Independent target o scheduled w)
    (hends : (h.finishing scheduled.length).Perm (List.range scheduled.length)) (jobs : Int) :
    ((h.runTools target o scheduled jobs).on w).1 = .ok (scheduled.map (h.alone target o w)) := by
  unfold runTools
  split
  · exact h.runInTurn_alone target o hown [] scheduled rfl
  · exact h.runTogether_alone target o hown hends

/-- An analyzer whose commands end alike, and that raises and reads alike, comes to the same. -/
theorem alone_eq_of_course {h h' : Host}
    (hcourse : h'.courseOf s.analyzer s.config target o w =
      h.courseOf s.analyzer s.config target o w)
    (htime : h'.elapsed s.analyzer.name = h.elapsed s.analyzer.name) :
    h'.alone target o w s = h.alone target o w s := by
  have hmine := h.invokeWithScratch_comes s.analyzer s.config target o w
  have hother := h'.invokeWithScratch_comes s.analyzer s.config target o w
  rw [hcourse] at hother
  rw [alone, alone, htime, hother.unique hmine]

/-- Where no program changes files and no analyzer wants a scratch directory, none depends on the
others. -/
theorem Still.independent {h : Host} (hstill : h.Still)
    (hplain : ∀ s ∈ scheduled, s.analyzer.usesScratch = false) (w : World) :
    h.Independent target o scheduled w := by
  have hlooks (s : Scheduled) (hmem : s ∈ scheduled) : (h.runOne target o s).Looks :=
    hstill.looks_runTool (hplain s hmem) s.config target o
  have hfiles (slots : List Nat) (w : World) :
      (h.afterSlots target o scheduled slots w).files = w.files := by
    induction slots generalizing w with
    | nil => rfl
    | cons i rest ih =>
      cases hs : scheduled[i]? with
      | none => rw [afterSlots_none h target o hs, ih]
      | some s =>
        rw [afterSlots_some h target o hs, ih]
        exact (hlooks s (List.mem_of_getElem? hs) w).1
  intro i s hs others _
  have hsame := (hlooks s (List.mem_of_getElem? hs) w).2 _ (hfiles others w)
  rw [runOne_alone, runOne_alone] at hsame
  exact Except.ok.inj hsame

/-- However many analyzers run at a time and whichever ends first, there is one outcome for each,
in the order of the schedule, and it is that of a run by itself. What another analyzer does makes
no difference to it. -/
theorem runTools_alone (scheduled : List Scheduled) (w : World)
    (hown : h.Independent target o scheduled w)
    (hends : (h.finishing scheduled.length).Perm (List.range scheduled.length)) (jobs : Int) :
    ∃ outcomes : List Outcome, ((h.runTools target o scheduled jobs).on w).1 = .ok outcomes ∧
      ((h.runInTurn target o scheduled).on w).1 = .ok outcomes ∧
      outcomes.map (·.tool) = scheduled.map (·.analyzer.name) ∧
      (∀ (i : Nat) s, scheduled[i]? = some s → ∃ x, outcomes[i]? = some x ∧
        ((h.runOne target o s).on w).1 = .ok x) ∧
      ∀ (h' : Host) (k : Nat) (s' : Scheduled) (jobs' : Int),
        h'.Independent target o (scheduled.set k s') w →
        (h'.finishing scheduled.length).Perm (List.range scheduled.length) →
        (∀ (i : Nat) s, i ≠ k → scheduled[i]? = some s →
          h'.courseOf s.analyzer s.config target o w = h.courseOf s.analyzer s.config target o w ∧
            h'.elapsed s.analyzer.name = h.elapsed s.analyzer.name) →
        ∃ others : List Outcome,
          ((h'.runTools target o (scheduled.set k s') jobs').on w).1 = .ok others ∧
          others.length = outcomes.length ∧ ∀ i : Nat, i ≠ k → others[i]? = outcomes[i]? := by
  refine ⟨scheduled.map (h.alone target o w), h.runTools_ok target o hown hends jobs,
    h.runInTurn_alone target o hown [] scheduled rfl, ?_, ?_, ?_⟩
  · rw [List.map_map]
    exact List.map_congr_left fun s _ => (told_keeps _ _).1
  · intro i s hs
    exact ⟨h.alone target o w s, by simp [hs], h.runOne_alone target o s w⟩
  · intro h' k s' jobs' hown' hends' hsame
    have hsize : (scheduled.set k s').length = scheduled.length := List.length_set
    refine ⟨_, h'.runTools_ok target o hown' (hsize ▸ hends') jobs', by simp, fun i hi => ?_⟩
    rw [List.getElem?_map, List.getElem?_map, List.getElem?_set_ne (Ne.symm hi)]
    cases hs : scheduled[i]? with
    | none => rw [Option.map_none, Option.map_none]
    | some s =>
      obtain ⟨hcourse, htime⟩ := hsame i s hi hs
      have hentry := alone_eq_of_course target o hcourse htime
      rw [Option.map_some, Option.map_some, hentry]

def backwardHost : Host := { idleHost with finishing := fun n => (List.range n).reverse }

def idleSchedule : List Scheduled :=
  [⟨idleAnalyzer, {}⟩, ⟨{ idleAnalyzer with name := "lint" }, {}⟩]

def brokenAnalyzer : Analyzer :=
  { idleAnalyzer with name := "lint", build := fun _ => .error (.raised "KeyError" "") }

private theorem backward_still : backwardHost.Still := by
  intro p hp l files r hr
  obtain rfl := List.mem_singleton.mp hp
  cases hr
  rfl

/-- Two analyzers of which the last ends first, and then the same two with the last one broken. -/
theorem runTools_alone_backward :
    ∃ outcomes others : List Outcome,
      ((backwardHost.runTools ⟨.root, []⟩ {} idleSchedule 2).on idleWorld).1 = .ok outcomes ∧
      outcomes.map (·.tool) = ["probe", "lint"] ∧
      ((backwardHost.runTools ⟨.root, []⟩ {} (idleSchedule.set 1 ⟨brokenAnalyzer, {}⟩) 2).on
        idleWorld).1 = .ok others ∧
      others.length = 2 ∧ others[0]? = outcomes[0]? := by
  have hends (n : Nat) : (backwardHost.finishing n).Perm (List.range n) := List.reverse_perm _
  have hown : backwardHost.Independent ⟨.root, []⟩ {} idleSchedule idleWorld :=
    backward_still.independent _ _ (by simp [idleSchedule, idleAnalyzer]) _
  have hbroken : backwardHost.Independent ⟨.root, []⟩ {}
      (idleSchedule.set 1 ⟨brokenAnalyzer, {}⟩) idleWorld :=
    backward_still.independent _ _ (by simp [idleSchedule, idleAnalyzer, brokenAnalyzer]) _
  obtain ⟨outcomes, hrun, -, htools, -, hothers⟩ :=
    backwardHost.runTools_alone ⟨.root, []⟩ {} idleSchedule idleWorld hown (hends _) 2
  obtain ⟨others, hrun', hlength, hsame⟩ :=
    hothers backwardHost 1 ⟨brokenAnalyzer, {}⟩ 2 hbroken (hends _) fun _ _ _ _ => ⟨rfl, rfl⟩
  have htwo : outcomes.length = 2 := by
    rw [← List.length_map, htools]
    rfl
  exact ⟨outcomes, others, hrun, htools, hrun', hlength.trans htwo, hsame 0 (by decide)⟩

end Host
end CodeAudit
