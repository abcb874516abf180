import CodeAudit.Proofs.Analyzer.Precheck
import CodeAudit.Proofs.Process.Checked
import Mathlib.Data.List.Forall2
namespace CodeAudit

/-- Items are dealt with one after the other, each with an answer, and each in the world that the one
before has left. -/
inductive InTurn {α β : Type} (step : α → World → β → World → Prop) :
    World → List (α × β) → World → Prop
  | nil (w : World) : InTurn step w [] w
  | cons {a : α} {b : β} {rest : List (α × β)} {u v w : World} (first : step a u b v)
      (others : InTurn step v rest w) : InTurn step u ((a, b) :: rest) w

/-- Some items are dealt with, each once and in order, and nothing is started but for one of them. -/
structure Dealt {α β : Type} (step : α → World → β → World → Prop)
    (starts : α → List Launch → Prop) (items : List α) (u : World) (answers : List (α × β))
    (v : World) : Prop where
  items : answers.map (·.1) = items
  inTurn : InTurn step u answers v
  launches : ∃ logs : List (List Launch), v.launches = u.launches ++ logs.flatten ∧
    List.Forall₂ (fun answer log => starts answer.1 log) answers logs

section
variable {α β : Type} {step : α → World → β → World → Prop} {starts : α → List Launch → Prop}
  {u v : World} {answers : List (α × β)}

theorem InTurn.dealt (hstep : ∀ {a u b v}, step a u b v →
      ∃ log, v.launches = u.launches ++ log ∧ starts a log)
    (hturn : InTurn step u answers v) : Dealt step starts (answers.map (·.1)) u answers v := by
  refine ⟨rfl, hturn, ?_⟩
  induction hturn with
  | nil w => exact ⟨[], by simp, .nil⟩
  | cons first _ ih =>
    obtain ⟨log, hlog, hstarts⟩ := hstep first
    obtain ⟨logs, hlogs, hothers⟩ := ih
    refine ⟨log :: logs, ?_, .cons hstarts hothers⟩
    rw [hlogs, hlog, List.flatten_cons, List.append_assoc]

end

namespace Host
open Act
variable {h : Host} {a : Analyzer} {as : List Analyzer} {b : Bool} {f : Fault} {u v w : World}

/-- Both limits can be waited for. -/
theorem limits_awaited :
    limitProblem? probeLimit.seconds = none ∧ limitProblem? installLimit.seconds = none := by
  decide +kernel

/-- An analyzer is there if it says so, and else is not, be it that it cannot be asked. -/
def Answers (h : Host) (a : Analyzer) (u : World) (b : Bool) (v : World) : Prop :=
  ∃ answer, (h.isInstalled a).on u = (answer, v) ∧ (b = true ↔ answer = .ok true)

/-- An analyzer is asked by at most one launch. -/
def Probes (h : Host) (a : Analyzer) (log : List Launch) : Prop :=
  log = [] ∨ ∃ l, h.Asks a.probeStart l ∧ log = [l]

theorem probe_on (h : Host) (a : Analyzer) (u : World) : (h.probe a).on u =
    (.ok (((h.isInstalled a).on u).1.toOption.getD false), ((h.isInstalled a).on u).2) := by
  rcases hasked : (h.isInstalled a).on u with ⟨answer, v⟩
  have hattempt : (attempt (h.isInstalled a)).on u = (.ok answer, v) := by
    rw [on_attempt, hasked]
  rw [probe, on_bind_ok hattempt]
  cases answer with
  | error e => rfl
  | ok there => rfl

theorem probe_ok_iff : (h.probe a).on u = (.ok b, v) ↔ h.Answers a u b v := by
  rw [probe_on, Answers]
  rcases (h.isInstalled a).on u with ⟨answer, v'⟩
  have hsays : answer.toOption.getD false = true ↔ answer = .ok true := by
    cases answer with
    | error e => simp [Except.toOption]
    | ok there => simp [Except.toOption]
  constructor
  · intro hprobed
    cases hprobed
    exact ⟨answer, rfl, hsays⟩
  · intro hanswers
    obtain ⟨answer', he, hb⟩ := hanswers
    cases he
    rw [Bool.eq_iff_iff.mpr (hb.trans hsays.symm)]

theorem Answers.launches (ha : h.Answers a u b v) :
    ∃ log, v.launches = u.launches ++ log ∧ h.Probes a log := by
  obtain ⟨answer, hasked, -⟩ := ha
  cases hpresence : a.presence with
  | told key answers =>
    have hstarts : (h.isInstalled a).Starts fun _ => False := by
      rw [isInstalled, hpresence]
      exact starts_bind (starts_nextAnswer key answers) fun _ => starts_ofExcept _
    obtain ⟨new, hnew, hnone⟩ := hstarts u
    rw [hasked] at hnew
    exact ⟨new, hnew, .inl (List.eq_nil_iff_forall_not_mem.mpr hnone)⟩
  | asked =>
    rcases hrun : (h.runCommand a.probeStart true (some probeLimit)).on u with ⟨ended, v'⟩
    have hsame : v = v' := by
      have hpure := on_bind_pure (h.runCommand a.probeStart true (some probeLimit))
        (fun ended => ended.2.status == 0) u
      rw [isInstalled, hpresence] at hasked
      change (h.runCommand a.probeStart true (some probeLimit) >>=
        fun ended => pure (ended.2.status == 0)).on u = (answer, v) at hasked
      rw [hpure, hrun] at hasked
      exact (congrArg Prod.snd hasked).symm
    rcases runCommand_launches limits_awaited.1 hrun with ⟨-, -, hv⟩ | ⟨l, hasks, hl⟩
    · exact ⟨[], by rw [hsame, hv, List.append_nil], .inl rfl⟩
    · exact ⟨[l], by rw [hsame, hl], .inr ⟨l, hasks, rfl⟩⟩

/-- An attempt to install an analyzer: what its hint tells to run is run, and if that is a success
the analyzer is looked for again. -/
inductive Attempt (h : Host) (a : Analyzer) (u : World) : Bool → World → Prop
  | untold (hnone : ∀ word words, Install.argv a.installHint ≠ .ok (word :: words)) :
    Attempt h a u false u
  | failed {word : String} {words : List String} {f : Fault} {v : World}
    (hwords : Install.argv a.installHint = .ok (word :: words))
    (hrun : (h.runChecked ⟨word :: words, none, []⟩ true (some installLimit)).on u = (.error f, v))
    (hcaught : isInstallFailure f = true) : Attempt h a u false v
  | carriedOut {word : String} {words : List String} {c : Completed} {b : Bool} {v w : World}
    (hwords : Install.argv a.installHint = .ok (word :: words))
    (hrun : (h.runChecked ⟨word :: words, none, []⟩ true (some installLimit)).on u = (.ok c, v))
    (hanswer : h.Answers a v b w) : Attempt h a u b w

theorem Install.words_cases (hint : String) :
    (∃ word words, Install.argv hint = .ok (word :: words)) ∨
      ∀ word words, Install.argv hint ≠ .ok (word :: words) := by
  cases Install.argv hint with
  | error e => simp
  | ok argv =>
    cases argv with
    | nil => simp
    | cons word words => simp

theorem install_untold (hnone : ∀ word words, Install.argv a.installHint ≠ .ok (word :: words)) :
    (h.install a).on u = (.ok false, u) := by
  rw [install]
  split
  · rfl
  · rfl
  · next argv hempty hargv =>
    cases argv with
    | nil => exact absurd rfl hempty
    | cons word words => exact absurd hargv (hnone word words)

theorem install_told {word : String} {words : List String}
    (hwords : Install.argv a.installHint = .ok (word :: words)) :
    (h.install a).on u =
      match (h.runChecked ⟨word :: words, none, []⟩ true (some installLimit)).on u with
      | (.ok _, v) => (h.probe a).on v
      | (.error f, v) => (if isInstallFailure f then .ok false else .error f, v) := by
  rcases hrun : (h.runChecked ⟨word :: words, none, []⟩ true (some installLimit)).on u with
    ⟨answer, v⟩
  have hattempt :
      (attempt (h.runChecked ⟨word :: words, none, []⟩ true (some installLimit))).on u =
        (.ok answer, v) := by
    rw [on_attempt, hrun]
  simp only [install, hwords]
  rw [on_bind_ok hattempt]
  cases answer with
  | ok c => rfl
  | error f =>
    dsimp only
    by_cases hcaught : isInstallFailure f = true
    · rw [if_pos hcaught, if_pos hcaught, on_pure]
    · rw [if_neg hcaught, if_neg hcaught]
      rfl

theorem install_ok_iff : (h.install a).on u = (.ok b, v) ↔ h.Attempt a u b v := by
  constructor
  · intro hinstalled
    rcases Install.words_cases a.installHint with ⟨word, words, hwords⟩ | hnone
    · rw [install_told hwords] at hinstalled
      rcases hrun : (h.runChecked ⟨word :: words, none, []⟩ true (some installLimit)).on u with
        ⟨answer, v'⟩
      rw [hrun] at hinstalled
      cases answer with
      | ok c => exact .carriedOut hwords hrun (probe_ok_iff.mp hinstalled)
      | error f =>
        dsimp only at hinstalled
        split at hinstalled
        · next hcaught =>
          cases hinstalled
          exact .failed hwords hrun hcaught
        · cases hinstalled
    · rw [install_untold hnone] at hinstalled
      cases hinstalled
      exact .untold hnone
  · intro hattempt
    cases hattempt with
    | untold hnone => exact install_untold hnone
    | failed hwords hrun hcaught =>
      rw [install_told hwords, hrun]
      simp only [hcaught, if_true]
    | carriedOut hwords hrun hanswer =>
      rw [install_told hwords, hrun]
      exact probe_ok_iff.mpr hanswer

/-- An attempt raises what its command raises, unless that is a failure of the installation. -/
theorem install_error_iff : (∃ v, (h.install a).on u = (.error f, v)) ↔
    ∃ word words, Install.argv a.installHint = .ok (word :: words) ∧ isInstallFailure f = false ∧
      ∃ v, (h.runChecked ⟨word :: words, none, []⟩ true (some installLimit)).on u =
        (.error f, v) := by
  constructor
  · rintro ⟨v, hraised⟩
    rcases Install.words_cases a.installHint with ⟨word, words, hwords⟩ | hnone
    · refine ⟨word, words, hwords, ?_⟩
      rw [install_told hwords] at hraised
      rcases hrun : (h.runChecked ⟨word :: words, none, []⟩ true (some installLimit)).on u with
        ⟨answer, v'⟩
      rw [hrun] at hraised
      cases answer with
      | ok c =>
        dsimp only at hraised
        rw [probe_on] at hraised
        cases hraised
      | error g =>
        dsimp only at hraised
        split at hraised
        · cases hraised
        · next hcaught =>
          cases hraised
          exact ⟨Bool.eq_false_iff.mpr hcaught, v, rfl⟩
    · rw [install_untold hnone] at hraised
      cases hraised
  · rintro ⟨word, words, hwords, hcaught, v, hrun⟩
    refine ⟨v, ?_⟩
    rw [install_told hwords, hrun]
    simp only [hcaught, Bool.false_eq_true, if_false]

/-- An attempt leaves nothing, or one launch of what the hint tells to run and then at most one to
look for the analyzer. -/
def Installs (h : Host) (a : Analyzer) (log : List Launch) : Prop :=
  log = [] ∨ ∃ words l probes, Install.argv a.installHint = .ok words ∧
    h.Asks ⟨words, none, []⟩ l ∧ h.Probes a probes ∧ log = l :: probes

theorem Attempt.launches (ha : h.Attempt a u b v) :
    ∃ log, v.launches = u.launches ++ log ∧ h.Installs a log := by
  cases ha with
  | untold hnone => exact ⟨[], by simp, .inl rfl⟩
  | failed hwords hrun hcaught =>
    rcases runChecked_launches limits_awaited.2 hrun with ⟨g, -, hv⟩ | ⟨l, hasks, hl⟩
    · exact ⟨[], by simp [hv], .inl rfl⟩
    · exact ⟨[l], hl, .inr ⟨_, l, [], hwords, hasks, .inl rfl, rfl⟩⟩
  | carriedOut hwords hrun hanswer =>
    rcases runChecked_launches limits_awaited.2 hrun with ⟨g, he, -⟩ | ⟨l, hasks, hl⟩
    · cases he
    · obtain ⟨log, hlog, hprobes⟩ := hanswer.launches
      refine ⟨l :: log, ?_, .inr ⟨_, l, log, hwords, hasks, hprobes, rfl⟩⟩
      rw [hlog, hl, List.append_assoc, List.singleton_append]

/-- Analyzers are looked for one after the other. -/
theorem probeAll_dealt {answers : List (Analyzer × Bool)}
    (hp : (h.probeAll as).on u = (.ok answers, v)) : Dealt h.Answers h.Probes as u answers v := by
  have hturn : InTurn h.Answers u answers v := by
    induction as generalizing answers u with
    | nil =>
      cases hp
      exact .nil _
    | cons a rest ih =>
      obtain ⟨b, w, hfirst, hp⟩ := Act.bind_eq_ok.mp hp
      obtain ⟨others, w', hrest, hp⟩ := Act.bind_eq_ok.mp hp
      cases hp
      exact .cons (probe_ok_iff.mp hfirst) (ih hrest)
  exact h.probeAll_analyzers hp ▸ hturn.dealt Answers.launches

/-- Looking for analyzers never fails. -/
theorem probeAll_answers (h : Host) (as : List Analyzer) (u : World) :
    ∃ answers v, (h.probeAll as).on u = (.ok answers, v) := by
  induction as generalizing u with
  | nil => exact ⟨[], u, rfl⟩
  | cons a rest ih =>
    obtain ⟨others, v, hrest⟩ := ih ((h.isInstalled a).on u).2
    refine ⟨(a, ((h.isInstalled a).on u).1.toOption.getD false) :: others, v, ?_⟩
    rw [probeAll, on_bind_ok (probe_on h a u), on_bind_ok hrest, on_pure]

/-- Analyzers are installed one after the other, if no attempt raises anything. -/
theorem installAll_ok_iff {attempts : List (Analyzer × Bool)} :
    (h.installAll as).on u = (.ok attempts, v) ↔
      attempts.map (·.1) = as ∧ InTurn h.Attempt u attempts v := by
  induction as generalizing attempts u with
  | nil =>
    rw [installAll, on_pure, Prod.mk.injEq, Except.ok.injEq, List.map_eq_nil_iff]
    constructor
    · rintro ⟨rfl, rfl⟩
      exact ⟨rfl, .nil u⟩
    · rintro ⟨rfl, hturn⟩
      cases hturn
      exact ⟨rfl, rfl⟩
  | cons a rest ih =>
    constructor
    · intro hi
      obtain ⟨b, w, hfirst, hi⟩ := Act.bind_eq_ok.mp hi
      obtain ⟨others, w', hrest, hi⟩ := Act.bind_eq_ok.mp hi
      cases hi
      obtain ⟨hothers, hturn⟩ := ih.mp hrest
      exact ⟨by rw [List.map_cons, hothers], .cons (install_ok_iff.mp hfirst) hturn⟩
    · rintro ⟨hall, hturn⟩
      cases hturn with
      | nil _ => cases hall
      | cons hfirst hothers =>
        obtain ⟨rfl, hrest⟩ := List.cons.inj hall
        rw [installAll, on_bind_ok (install_ok_iff.mpr hfirst),
          on_bind_ok (ih.mpr ⟨hrest, hothers⟩), on_pure]

/-- The first attempt that raises something is the last that is made. -/
theorem installAll_error_iff :
    (∃ v, (h.installAll as).on u = (.error f, v)) ↔
      ∃ (done : List (Analyzer × Bool)) (a : Analyzer) (rest : List Analyzer) (w : World),
        as = done.map (·.1) ++ a :: rest ∧ InTurn h.Attempt u done w ∧
          ∃ v, (h.install a).on w = (.error f, v) := by
  induction as generalizing u with
  | nil =>
    constructor
    · rintro ⟨v, hi⟩
      cases hi
    · rintro ⟨done, a, rest, w, hnone, -⟩
      simp at hnone
  | cons a others ih =>
    constructor
    · rintro ⟨v, hi⟩
      rcases Act.bind_eq_error.mp hi with hfirst | ⟨b, w, hfirst, hi⟩
      · exact ⟨[], a, others, u, rfl, .nil u, v, hfirst⟩
      · rcases Act.bind_eq_error.mp hi with hrest | ⟨made, w', -, hpure⟩
        · obtain ⟨done, a', rest, w', rfl, hturn, hraised⟩ := ih.mp ⟨v, hrest⟩
          exact ⟨(a, b) :: done, a', rest, w', rfl, .cons (install_ok_iff.mp hfirst) hturn, hraised⟩
        · cases hpure
    · rintro ⟨done, a', rest, w, hall, hturn, v, hraised⟩
      cases hturn with
      | nil _ =>
        obtain ⟨rfl, -⟩ := List.cons.inj hall
        exact ⟨v, Act.bind_eq_error.mpr (.inl hraised)⟩
      | cons hfirst hmade =>
        obtain ⟨rfl, hrest⟩ := List.cons.inj hall
        obtain ⟨v', hi⟩ := ih.mpr ⟨_, a', rest, w, hrest, hmade, v, hraised⟩
        refine ⟨v', Act.bind_eq_error.mpr (.inr ⟨_, _, install_ok_iff.mpr hfirst, ?_⟩)⟩
        exact Act.bind_eq_error.mpr (.inl hi)

end Host
end CodeAudit
