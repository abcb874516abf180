import CodeAudit.Proofs.Steps
import CodeAudit.Run.Invocation
namespace CodeAudit

/-- What is started for a command. -/
def Command.start (c : Command) : Host.Start := ⟨c.argv, c.workingDir, []⟩

/-- What became of a command that was to be run within a limit. -/
inductive Ending
  | exited (r : Reaction)
  | overdue
  | notStarted (cause : Fault)
  /-- It was started, but its limit cannot be waited for. -/
  | notAwaited (problem : LimitProblem)

namespace Ending

/-- Whether nothing is tried after it. -/
def stops : Ending → Bool
  | overdue => true
  | notAwaited problem => problem != .notNumber
  | _ => false

/-- What a run of a command comes to by its ending. -/
def answer (c : Command) (limit : Double) : Ending → Except Fault (Except Host.Failure Completed)
  | exited r => .ok (.ok ⟨r.status, some (Host.lossyText r.stdout), some (Host.lossyText r.stderr)⟩)
  | overdue => .ok (.error (.overdue limit))
  | notStarted cause => .ok (.error (.notStarted c.executable cause))
  | notAwaited .notNumber => .ok (.error (.notStarted c.executable (.limitOverflow .notNumber)))
  | notAwaited problem => .error (.limitOverflow problem)

theorem stops_notAwaited {problem : LimitProblem} (hp : problem ≠ .notNumber) :
    (notAwaited problem).stops = true := bne_iff_ne.mpr hp

theorem answer_notAwaited {problem : LimitProblem} (hp : problem ≠ .notNumber) (c : Command)
    (limit : Double) : (notAwaited problem).answer c limit = .error (.limitOverflow problem) := by
  cases problem with
  | notNumber => exact absurd rfl hp
  | infinite => rfl
  | beyondClock => rfl
  | beyondWait => rfl

end Ending

namespace Host
open Act
variable (h : Host) {limit : Double} {c : Command} {w : World}

/-- Why a limit cannot be waited for, if it cannot. -/
def limitProblem? (limit : Double) : Option LimitProblem :=
  match checkLimit limit with
  | .error (.limitOverflow problem) => some problem
  | _ => none

theorem checkLimit_eq (limit : Double) :
    checkLimit limit = match limitProblem? limit with
      | some problem => .error (.limitOverflow problem)
      | none => .ok () := by
  unfold limitProblem? checkLimit
  dsimp only
  split
  · rfl
  · rfl
  · split
    · rfl
    · split
      · rfl
      · rfl

def ending (limit : Double) (c : Command) (w : World) : Ending :=
  match ((h.start c.start).on w).1 with
  | .error cause => .notStarted cause
  | .ok (_, r) =>
    match limitProblem? limit with
    | some problem => .notAwaited problem
    | none => if inTime r limit then .exited r else .overdue

/-- Two minutes can be waited for, and are enough for a program that ends at once. -/
theorem ending_at_once {path : String} {r : Reaction}
    (hs : ((h.start c.start).on w).1 = .ok (path, r)) (hr : r.group = ⟨{}, []⟩) :
    h.ending (.ofInt 120) c w = .exited r := by
  have hminutes : limitProblem? (.ofInt 120) = none ∧
      (Double.zero.lt (.ofInt 120) && Group.finishedBy ⟨{}, []⟩ (.ofInt 120)) = true := by
    decide +kernel
  have htime : inTime r (.ofInt 120) = true := by
    rw [inTime, hr]
    exact hminutes.2
  rw [ending, hs, hminutes.1]
  exact if_pos htime

/-- The world that a command leaves, whatever becomes of it. -/
def after (limit : Double) (c : Command) (w : World) : World := ((h.spawn c limit).on w).2

private theorem locate_fault {files : FileTree} {executable : String} {f : Fault}
    (hl : h.locate files executable = .error f) : isSpawnFault f = true := by
  unfold locate at hl
  split at hl
  · cases hl
  · cases hl
    rfl

private theorem startDirectory_fault {files : FileTree} {cwd : Option Path} {f : Fault}
    (hd : h.startDirectory files cwd = .error f) : isSpawnFault f = true := by
  unfold startDirectory at hd
  split at hd
  · cases hd
  · dsimp only at hd
    split at hd
    · cases hd
      rfl
    · split at hd
      · cases hd
      · cases hd
        rfl
      · cases hd
        rfl

private theorem prepare_fault {files : FileTree} {s : Start} {f : Fault}
    (hp : h.prepare files s = .error f) : isSpawnFault f = true := by
  unfold prepare at hp
  split at hp
  · cases hp
    rfl
  · rcases bind_eq_error.mp hp with hl | ⟨path, -, hp⟩
    · exact h.locate_fault hl
    · dsimp only at hp
      split at hp
      · cases hp
        rfl
      · rcases bind_eq_error.mp hp with hd | ⟨directory, -, hp⟩
        · exact h.startDirectory_fault hd
        · split at hp
          · cases hp
            rfl
          · cases hp

private theorem react_fault {files : FileTree} {path : String} {l : Launch} {f : Fault}
    (hr : h.react files path l = .error f) : isSpawnFault f = true := by
  unfold react at hr
  split at hr
  · cases hr
    rfl
  · split at hr
    · cases hr
      rfl
    · cases hr

/-- A start changes something only if the program reacts. -/
theorem start_on (s : Start) (w : World) :
    (h.start s).on w = match h.prepare w.files s with
      | .error f => (.error f, w)
      | .ok (path, launch) =>
        match h.react w.files path launch with
        | .error f => (.error f, w)
        | .ok r =>
          (.ok (path, r), { w with launches := w.launches ++ [launch], files := r.files }) := by
  rw [start, on_bind_ok (on_files w)]
  cases h.prepare w.files s with
  | error f => rfl
  | ok prepared =>
    obtain ⟨path, launch⟩ := prepared
    rw [on_bind_ok (on_ofExcept _ w)]
    dsimp only
    cases h.react w.files path launch with
    | error f => rfl
    | ok r => rfl

/-- Whatever keeps a program from being started is told as that. -/
theorem start_fault {s : Start} {f : Fault} {v : World} (hs : (h.start s).on w = (.error f, v)) :
    isSpawnFault f = true := by
  rw [start_on] at hs
  split at hs
  · next hp =>
    cases hs
    exact h.prepare_fault hp
  · split at hs
    · next hr =>
      cases hs
      exact h.react_fault hr
    · cases hs

/-- Ending a group changes nothing but which processes are left. -/
theorem endGroup_on (g : Group) (limit grace : Double) (w : World) :
    (endGroup g limit grace).on w =
      (checkDelay g (Group.passing limit) grace,
        { w with survivors := w.survivors ++ leftOf g (Group.passing limit) grace }) :=
  on_ofExcept _ _

theorem checkDelay_ok {grace : Double} (hgrace : limitProblem? grace = none) (g : Group)
    (time : Double) : checkDelay g time grace = .ok () := by
  rw [checkDelay, checkLimit_eq, hgrace, ite_self]

theorem killGrace_ok : limitProblem? killGrace = none := by decide +kernel

/-- What waiting for a program that was started comes to. -/
theorem runGroup_on {s : Start} {started : String × Reaction} {v : World}
    (hs : (h.start s).on w = (.ok started, v)) (limit grace : Double) :
    (h.runGroup s limit grace).on w =
      match checkLimit limit with
      | .error f => (.error f, v)
      | .ok () =>
        if inTime started.2 limit then
          (.ok ⟨started.2.status, some (lossyText started.2.stdout),
            some (lossyText started.2.stderr)⟩, v)
        else
          ((checkDelay started.2.group (Group.passing limit) grace).bind fun _ =>
              .error (.timedOut limit),
            { v with survivors :=
                v.survivors ++ leftOf started.2.group (Group.passing limit) grace }) := by
  rw [runGroup, on_bind_ok hs]
  cases hlimit : checkLimit limit with
  | error f => rw [on_bind_error (on_ofExcept _ v)]
  | ok _ =>
    rw [on_bind_ok (on_ofExcept _ v)]
    dsimp only
    split
    · rfl
    · have hended := endGroup_on started.2.group limit grace v
      cases hdelay : checkDelay started.2.group (Group.passing limit) grace with
      | error f =>
        rw [hdelay] at hended
        rw [on_bind_error hended]
        rfl
      | ok _ =>
        rw [hdelay] at hended
        rw [on_bind_ok hended]
        rfl

theorem runGroup_answer {grace : Double} (hgrace : limitProblem? grace = none) (limit : Double)
    (c : Command) (w : World) :
    ((h.runGroup c.start limit grace).on w).1 = match h.ending limit c w with
      | .exited r => .ok ⟨r.status, some (lossyText r.stdout), some (lossyText r.stderr)⟩
      | .overdue => .error (.timedOut limit)
      | .notStarted cause => .error cause
      | .notAwaited problem => .error (.limitOverflow problem) := by
  rcases hs : (h.start c.start).on w with ⟨answer, v⟩
  cases answer with
  | error cause => simp [runGroup, on_bind_error hs, ending, hs]
  | ok started =>
    rw [h.runGroup_on hs, ending, hs, checkLimit_eq, checkDelay_ok hgrace]
    dsimp only
    cases limitProblem? limit with
    | some problem => rfl
    | none =>
      cases inTime started.2 limit with
      | true => rfl
      | false => rfl

theorem ending_fault {cause : Fault} (he : h.ending limit c w = .notStarted cause) :
    isSpawnFault cause = true := by
  unfold ending at he
  split at he
  · next hs =>
    cases he
    exact h.start_fault (Prod.ext hs rfl)
  · split at he
    · cases he
    · split at he
      · cases he
      · cases he

theorem spawn_on (limit : Double) (c : Command) (w : World) :
    (h.spawn c limit).on w = ((h.ending limit c w).answer c limit, h.after limit c w) := by
  refine Prod.ext ?_ rfl
  have hanswer := h.runGroup_answer killGrace_ok limit c w
  rcases hg : (h.runGroup c.start limit killGrace).on w with ⟨x, v⟩
  rw [hg] at hanswer
  have hx : (attempt (h.runGroup c.start limit killGrace)).on w = (.ok x, v) := by
    rw [on_attempt, hg]
  rw [Command.start] at hx
  rw [spawn, on_bind_ok hx]
  dsimp only at hanswer
  subst hanswer
  cases he : h.ending limit c w with
  | exited r => rfl
  | overdue => rfl
  | notStarted cause =>
    have hfault := h.ending_fault he
    dsimp only
    split
    · next hs => cases hs
    · next hs =>
      cases hs
      cases hfault
    · next hs =>
      cases hs
      rw [if_pos hfault]
      rfl
  | notAwaited problem =>
    cases problem with
    | notNumber => rfl
    | infinite => rfl
    | beyondClock => rfl
    | beyondWait => rfl

end Host
end CodeAudit
