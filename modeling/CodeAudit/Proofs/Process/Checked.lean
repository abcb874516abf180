import CodeAudit.Proofs.Process.Ending
import CodeAudit.Proofs.Process.Launches
namespace CodeAudit.Host
open Act
variable {h : Host} {s : Start} {limit : Limit} {w v : World}

/-- A program that is started leaves one launch. -/
theorem start_launches {path : String} {r : Reaction}
    (hs : (h.start s).on w = (.ok (path, r), v)) :
    ∃ l, h.Asks s l ∧ v.launches = w.launches ++ [l] := by
  rw [start_on] at hs
  cases hp : h.prepare w.files s with
  | error f =>
    rw [hp] at hs
    cases hs
  | ok prepared =>
    obtain ⟨path, l⟩ := prepared
    rw [hp] at hs
    dsimp only at hs
    cases hr : h.react w.files path l with
    | error f =>
      rw [hr] at hs
      cases hs
    | ok r =>
      rw [hr] at hs
      cases hs
      exact ⟨l, ⟨w.files, path, hp⟩, rfl⟩

/-- What cannot be started leaves nothing. -/
theorem start_still {f : Fault} (hs : (h.start s).on w = (.error f, v)) : v = w := by
  rw [start_on] at hs
  split at hs
  · cases hs
    rfl
  · split at hs
    · cases hs
      rfl
    · cases hs

/-- What of the output of a program is not UTF-8, its errors being looked at last. -/
inductive Garbled (r : Reaction) : Text.Undecodable → Prop
  | stdout {cause : Text.Undecodable} (he : Text.decode r.stdout = .error cause) : Garbled r cause
  | stderr {cause : Text.Undecodable} {cs : List Char} (ho : Text.decode r.stdout = .ok cs)
      (he : Text.decode r.stderr = .error cause) : Garbled r cause

theorem strictText_error_iff {bytes : Text.Bytes} {f : Fault} :
    strictText bytes = .error f ↔
      ∃ cause, Text.decode bytes = .error cause ∧ f = .undecodable cause := by
  unfold strictText
  cases Text.decode bytes with
  | ok cs => simp
  | error cause => simp [eq_comm]

theorem strictText_ok_iff {bytes : Text.Bytes} :
    (∃ text, strictText bytes = .ok text) ↔ ∃ cs, Text.decode bytes = .ok cs := by
  unfold strictText
  cases Text.decode bytes with
  | ok cs => simp
  | error cause => simp

theorem collected_error_iff {r : Reaction} {f : Fault} :
    collected r true = .error f ↔ ∃ cause, Garbled r cause ∧ f = .undecodable cause := by
  rw [collected, if_pos rfl, bind_eq_error, strictText_error_iff]
  constructor
  · intro h
    rcases h with ⟨cause, he, rfl⟩ | ⟨text, ho, h⟩
    · exact ⟨cause, .stdout he, rfl⟩
    · obtain ⟨cs, hcs⟩ := strictText_ok_iff.mp ⟨text, ho⟩
      rcases bind_eq_error.mp h with h | ⟨stderr, -, h⟩
      · obtain ⟨cause, he, rfl⟩ := strictText_error_iff.mp h
        exact ⟨cause, .stderr hcs he, rfl⟩
      · cases h
  · intro h
    obtain ⟨cause, hgarbled, rfl⟩ := h
    cases hgarbled with
    | stdout he => exact .inl ⟨cause, he, rfl⟩
    | stderr ho he =>
      obtain ⟨text, htext⟩ := strictText_ok_iff.mpr ⟨_, ho⟩
      refine .inr ⟨text, htext, bind_eq_error.mpr (.inl ?_)⟩
      exact strictText_error_iff.mpr ⟨cause, he, rfl⟩

/-- What a short command comes to by what its start comes to, if its limit can be waited for. -/
theorem runCommand_on (hlimit : limitProblem? limit.seconds = none) (capture : Bool) :
    (h.runCommand s capture (some limit)).on w = match (h.start s).on w with
      | (.error f, v) => (.error f, v)
      | (.ok (path, r), v) =>
        if inTime r limit.seconds then ((collected r capture).map (path, ·), v)
        else (.ok (path, overdue r capture limit), { v with
          survivors := v.survivors ++ Group.aliveAt r.group.workers limit.seconds }) := by
  rcases hs : (h.start s).on w with ⟨answer, v⟩
  cases answer with
  | error f => rw [runCommand, on_bind_error hs]
  | ok started =>
    obtain ⟨path, r⟩ := started
    have hchecked : (ofExcept (checkLimit limit.seconds)).on v = (.ok (), v) := by
      rw [on_ofExcept, checkLimit_eq, hlimit]
    rw [runCommand, on_bind_ok hs]
    dsimp only
    rw [on_bind_ok hchecked]
    by_cases htime : inTime r limit.seconds = true
    · rw [if_pos htime, if_pos htime, on_bind_pure, on_ofExcept]
    · rw [if_neg htime, if_neg htime]
      rfl

/-- A short command leaves one launch, unless it cannot be started. -/
theorem runCommand_launches {capture : Bool} {x : Except Fault (String × Completed)}
    (hlimit : limitProblem? limit.seconds = none)
    (hr : (h.runCommand s capture (some limit)).on w = (x, v)) :
    (∃ f, x = .error f ∧ v = w) ∨ ∃ l, h.Asks s l ∧ v.launches = w.launches ++ [l] := by
  rw [runCommand_on hlimit] at hr
  rcases hs : (h.start s).on w with ⟨answer, u⟩
  rw [hs] at hr
  cases answer with
  | error f =>
    cases hr
    exact .inl ⟨f, rfl, start_still hs⟩
  | ok started =>
    right
    obtain ⟨l, hasks, hl⟩ := start_launches hs
    refine ⟨l, hasks, ?_⟩
    rw [← hl]
    dsimp only at hr
    split at hr
    · cases hr
      rfl
    · cases hr
      rfl

theorem runChecked_launches {capture : Bool} {x : Except Fault Completed}
    (hlimit : limitProblem? limit.seconds = none)
    (hr : (h.runChecked s capture (some limit)).on w = (x, v)) :
    (∃ f, x = .error f ∧ v = w) ∨ ∃ l, h.Asks s l ∧ v.launches = w.launches ++ [l] := by
  rcases hc : (h.runCommand s capture (some limit)).on w with ⟨y, u⟩
  have hleft := runCommand_launches hlimit hc
  cases y with
  | error f =>
    rw [runChecked, on_bind_error hc] at hr
    cases hr
    exact hleft.imp_left fun h => ⟨f, rfl, by obtain ⟨-, -, hv⟩ := h; exact hv⟩
  | ok ended =>
    have hsame : v = u := by
      rw [runChecked, on_bind_ok hc] at hr
      dsimp only at hr
      split at hr
      · cases hr
        rfl
      · cases hr
        rfl
    rcases hleft with ⟨f, he, -⟩ | hl
    · cases he
    · exact .inr (hsame ▸ hl)

/-- A command that comes to an end raises nothing but that its status is not zero. -/
theorem runChecked_of_ok {capture : Bool} {path : String} {c : Completed}
    (hc : (h.runCommand s capture (some limit)).on w = (.ok (path, c), v)) :
    (h.runChecked s capture (some limit)).on w =
      (if c.status = 0 then .ok c
       else .error (.commandFailed path c.status (c.stderr.getD "")), v) := by
  rw [runChecked, on_bind_ok hc]
  dsimp only
  by_cases hstatus : c.status = 0
  · rw [if_pos hstatus, if_pos hstatus, on_pure]
  · rw [if_neg hstatus, if_neg hstatus]
    rfl

/-- What keeps a short command from coming to an end: that it cannot be started, or that its output
cannot be collected. -/
theorem runCommand_error_iff {f : Fault} (hlimit : limitProblem? limit.seconds = none) :
    (∃ v, (h.runCommand s true (some limit)).on w = (.error f, v)) ↔
      (∃ v, (h.start s).on w = (.error f, v)) ∨
        ∃ path r v cause, (h.start s).on w = (.ok (path, r), v) ∧
          inTime r limit.seconds = true ∧ Garbled r cause ∧ f = .undecodable cause := by
  rw [runCommand_on hlimit]
  rcases (h.start s).on w with ⟨answer, v⟩
  cases answer with
  | error g => simp
  | ok started =>
    obtain ⟨path, r⟩ := started
    dsimp only
    by_cases htime : inTime r limit.seconds = true
    · rw [if_pos htime]
      simp only [Prod.mk.injEq, exists_eq_right', map_eq_error, collected_error_iff]
      constructor
      · intro hraised
        obtain ⟨cause, hgarbled, rfl⟩ := hraised
        exact .inr ⟨path, r, v, cause, ⟨rfl, rfl⟩, htime, hgarbled, rfl⟩
      · intro hraised
        obtain hnone | ⟨path', r', v', cause, ⟨he, -⟩, -, hgarbled, rfl⟩ := hraised
        · cases hnone
        · cases he
          exact ⟨cause, hgarbled, rfl⟩
    · rw [if_neg htime]
      simp [htime]

theorem runChecked_error_iff {f : Fault}
    (hf : ∀ path status stderr, f ≠ .commandFailed path status stderr) {capture : Bool} :
    (∃ v, (h.runChecked s capture (some limit)).on w = (.error f, v)) ↔
      ∃ v, (h.runCommand s capture (some limit)).on w = (.error f, v) := by
  rcases hc : (h.runCommand s capture (some limit)).on w with ⟨answer, u⟩
  cases answer with
  | error g =>
    rw [runChecked, on_bind_error hc]
    simp
  | ok ended =>
    obtain ⟨path, c⟩ := ended
    rw [runChecked_of_ok hc]
    by_cases hstatus : c.status = 0
    · rw [if_pos hstatus]
      simp
    · rw [if_neg hstatus]
      simp [(hf _ _ _).symm]

end CodeAudit.Host
