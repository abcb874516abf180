import CodeAudit.Proofs.Process.Ending
import CodeAudit.Proofs.Process.Group
namespace CodeAudit.Host
open Act

/-- What cannot be waited for is told as such. -/
theorem checkLimit_error {limit : Double} {f : Fault} (hf : checkLimit limit = .error f) :
    ∃ problem, f = .limitOverflow problem := by
  rw [checkLimit_eq] at hf
  split at hf
  · next problem _ => exact ⟨problem, (Except.error.inj hf).symm⟩
  · cases hf

theorem checkDelay_error {g : Group} {time grace : Double} {f : Fault}
    (hf : checkDelay g time grace = .error f) : ∃ problem, f = .limitOverflow problem := by
  unfold checkDelay at hf
  split at hf
  · exact checkLimit_error hf
  · cases hf

variable (h : Host)

theorem start_survivors {s : Start} {w v : World} {started : String × Reaction}
    (hs : (h.start s).on w = (.ok started, v)) : v.survivors = w.survivors := by
  rw [start_on] at hs
  split at hs
  · cases hs
  · split at hs
    · cases hs
    · cases hs
      rfl

/-- A limit is told to have passed only once a program was started, did not finish in time, and its
group was ended. What is left of the group are the workers that are not reached by that. -/
theorem runGroup_timedOut {s : Start} {limit grace : Double} {w w' : World} {l : Double}
    (ht : (h.runGroup s limit grace).on w = (.error (.timedOut l), w')) :
    ∃ started v, (h.start s).on w = (.ok started, v) ∧ l = limit ∧
      inTime started.2 limit = false ∧
      w'.survivors = w.survivors ++ started.2.group.terminate (Group.passing limit) grace := by
  rcases hs : (h.start s).on w with ⟨answer, v⟩
  cases answer with
  | error f =>
    rw [runGroup, on_bind_error hs] at ht
    cases ht
    cases h.start_fault hs
  | ok started =>
    refine ⟨started, v, rfl, ?_⟩
    rw [h.runGroup_on hs] at ht
    split at ht
    · next f hlimit =>
      cases ht
      obtain ⟨problem, hf⟩ := checkLimit_error hlimit
      cases hf
    · split at ht
      · cases ht
      · next hin =>
        obtain ⟨ht, hw⟩ := Prod.mk.inj ht
        cases hdelay : checkDelay started.2.group (Group.passing limit) grace with
        | error f =>
          rw [hdelay] at ht
          cases ht
          obtain ⟨problem, hf⟩ := checkDelay_error hdelay
          cases hf
        | ok _ =>
          rw [hdelay] at ht
          cases ht
          refine ⟨rfl, Bool.eq_false_iff.mpr hin, ?_⟩
          rw [← hw, leftOf, hdelay]
          exact congrArg (· ++ _) (h.start_survivors hs)

/-- A program that is told to have ended was started, and it and all that holds its pipes ended
within the limit. -/
theorem runGroup_completed {s : Start} {limit grace : Double} {w w' : World} {c : Completed}
    (hc : (h.runGroup s limit grace).on w = (.ok c, w')) :
    ∃ started v, (h.start s).on w = (.ok started, v) ∧ inTime started.2 limit = true := by
  rcases hs : (h.start s).on w with ⟨answer, v⟩
  cases answer with
  | error f =>
    rw [runGroup, on_bind_error hs] at hc
    cases hc
  | ok started =>
    refine ⟨started, v, rfl, ?_⟩
    rw [h.runGroup_on hs] at hc
    split at hc
    · cases hc
    · split at hc
      · next hin => exact hin
      · obtain ⟨hc, -⟩ := Prod.mk.inj hc
        obtain ⟨_, -, hc⟩ := bind_eq_ok.mp hc
        cases hc

/-- After a timeout nothing is alive of the group but the workers that escape, and whatever program
is told to have ended did so within the limit. -/
theorem runGroup_leaves (s : Start) (limit grace : Double) (w w' : World) :
    (∀ l, (h.runGroup s limit grace).on w = (.error (.timedOut l), w') →
      ∃ path reaction v left, (h.start s).on w = (.ok (path, reaction), v) ∧
        w'.survivors = w.survivors ++ left ∧
        (∀ m, m ∈ left ↔ reaction.group.Escapes (Group.passing limit) grace m) ∧
        ((∀ m ∈ reaction.group.workers, m.ignoresTerm = true → m.holdsPipes = true) →
          left = [])) ∧
    ∀ c, (h.runGroup s limit grace).on w = (.ok c, w') →
      ∃ path reaction v, (h.start s).on w = (.ok (path, reaction), v) ∧
        Double.zero.lt limit = true ∧ reaction.group.leader.lifetime.le limit = true ∧
        ∀ m ∈ reaction.group.workers, m.holdsPipes = true → m.lifetime.le limit = true := by
  constructor
  · intro l ht
    obtain ⟨⟨path, reaction⟩, v, hs, -, -, hleft⟩ := h.runGroup_timedOut ht
    exact ⟨path, reaction, v, _, hs, hleft, fun m => Group.mem_terminate_iff,
      fun hw => Group.terminate_eq_nil hw _ _⟩
  · intro c hc
    obtain ⟨⟨path, reaction⟩, v, hs, hin⟩ := h.runGroup_completed hc
    obtain ⟨hlimit, hfinished⟩ := Bool.and_eq_true_iff.mp hin
    obtain ⟨hleader, hworkers⟩ := List.forall_mem_cons.mp (List.all_eq_true.mp hfinished)
    exact ⟨path, reaction, v, hs, hlimit, hleader,
      fun m hm hholds => hworkers m (List.mem_filter.mpr ⟨hm, hholds⟩)⟩

/-- A worker that ignores a request to end and writes elsewhere. -/
def stubbornWorker : Member :=
  { lifetime := .ofInt 60, ignoresTerm := true, holdsPipes := false }

/-- A program that leaves such a worker behind when it is asked to end. -/
def leavingHost : Host where
  programs := [(["bin", "tool"], fun _ files =>
    .ok { group := ⟨{ lifetime := .ofInt 30 }, [stubbornWorker]⟩, files })]
  home := ⟨.root, ["home"]⟩
  workingDir := ⟨.root, []⟩
  temporary := ⟨.root, ["tmp"]⟩
  bundled := ⟨.root, ["bundled"]⟩
  date := .ofSeconds 0

def leavingWorld : World where
  files := .directory [("bin", .directory [("tool", .file [] true)])]

private theorem leaving_times :
    limitProblem? (.ofInt 3) = none ∧
      (Double.zero.lt (.ofInt 3) && Group.finishedBy ⟨{ lifetime := .ofInt 30 }, [stubbornWorker]⟩
        (.ofInt 3)) = false ∧
      (Group.passing (.ofInt 3)).lt stubbornWorker.lifetime = true ∧
      killGrace.le .zero = false := by
  decide +kernel

theorem runGroup_leaves_worker :
    ∃ w', (leavingHost.runGroup ⟨["/bin/tool"], none, []⟩ (.ofInt 3) killGrace).on leavingWorld =
        (.error (.timedOut (.ofInt 3)), w') ∧ stubbornWorker ∈ w'.survivors := by
  obtain ⟨hlimit, hin, halive, hgrace⟩ := leaving_times
  obtain ⟨path, v, hs⟩ : ∃ path v, (leavingHost.start ⟨["/bin/tool"], none, []⟩).on leavingWorld =
      (.ok (path, { group := ⟨{ lifetime := .ofInt 30 }, [stubbornWorker]⟩,
                    files := leavingWorld.files }), v) := ⟨_, _, rfl⟩
  have ht := leavingHost.runGroup_on hs (.ofInt 3) killGrace
  rw [checkLimit_eq, hlimit, checkDelay_ok killGrace_ok] at ht
  dsimp only at ht
  rw [inTime, hin, if_neg Bool.false_ne_true] at ht
  refine ⟨_, ht, ?_⟩
  obtain ⟨htimeout, -⟩ := runGroup_leaves leavingHost ⟨["/bin/tool"], none, []⟩ (.ofInt 3) killGrace
    leavingWorld _
  obtain ⟨_, reaction, _, left, hs', hleft, hmem, -⟩ := htimeout _ ht
  rw [hleft, List.mem_append]
  right
  rw [hmem]
  cases hs.symm.trans hs'
  refine ⟨by simp, rfl, rfl, halive, hgrace, fun a ha hdeaf _ => ?_⟩
  obtain rfl : a = { lifetime := .ofInt 30 } := by simpa [Group.awaited, stubbornWorker] using ha
  cases hdeaf

end CodeAudit.Host
