import CodeAudit.Analyzer.Catalog
import CodeAudit.Proofs.Text.Blank
namespace CodeAudit
open Output

/-- When an analyzer that left nothing to read is told as failed. -/
structure Alarm where
  status : Int → Bool
  stderr : String → Bool := fun _ => true
  /-- Where it counts that nothing is there to be read. -/
  lacking : Output → Bool := Output.silent

def Alarm.raised (x : Alarm) (o : Output) : Bool :=
  x.lacking o && x.status o.status && x.stderr o.stderr

/-- An output with nothing to read in it, neither printed nor reported. -/
structure Output.Bare (o : Output) : Prop where
  silent : o.silent = true
  unreported : o.files.lookup Analyzer.Jscpd.reportName = none

/-- A reader that fails where an alarm is raised, and otherwise finds nothing where there is
nothing. -/
structure Alarm.Heeded (x : Alarm) (read : Output → Except Fault (List Finding)) : Prop where
  raised : ∀ o, x.raised o = true → ∃ m, read o = fault m
  quiet : ∀ o, x.raised o = false → o.Bare → read o = .ok []

namespace Alarm.Heeded

theorem of_silent {status : Int → Bool} {stderr : String → Bool}
    {read rest : Output → Except Fault (List Finding)} {c : Output → Prop} [DecidablePred c]
    {m : Output → String}
    (hread : ∀ o, read o = if o.silent then (if c o then fault (m o) else pure []) else rest o)
    (hc : ∀ o, c o ↔ (status o.status && stderr o.stderr) = true) :
    Heeded { status, stderr } read := by
  constructor
  · intro o h
    simp only [Alarm.raised, Bool.and_assoc, Bool.and_eq_true o.silent] at h
    exact ⟨m o, by rw [hread, if_pos h.1, if_pos ((hc o).mpr h.2)]⟩
  · intro o h hbare
    have hnone : ¬ c o := by
      rw [hc]
      simpa [Alarm.raised, hbare.silent] using h
    rw [hread, if_pos hbare.silent, if_neg hnone]
    rfl

theorem of_always {status : Int → Bool} {read rest : Output → Except Fault (List Finding)}
    {c : Output → Prop} [DecidablePred c] {m : Output → String}
    (hread : ∀ o, read o = if c o then fault (m o) else rest o)
    (hc : ∀ o, c o ↔ status o.status = true) (hrest : ∀ o, o.silent = true → rest o = .ok []) :
    Heeded { status, lacking := fun _ => true } read := by
  constructor
  · intro o h
    have hstatus : status o.status = true := by simpa [Alarm.raised] using h
    exact ⟨m o, by rw [hread, if_pos ((hc o).mpr hstatus)]⟩
  · intro o h hbare
    have hnone : ¬ c o := by
      rw [hc]
      simpa [Alarm.raised] using h
    rw [hread, if_neg hnone, hrest o hbare.silent]

end Alarm.Heeded

theorem Output.each_eq_nil {α β : Type} {f : α → Except Fault (List β)} {xs : List α}
    (h : ∀ x ∈ xs, f x = .ok []) : each f xs = .ok [] := by
  induction xs with
  | nil => rfl
  | cons x xs ih =>
    rw [each, h x List.mem_cons_self, ih fun y hy => h y (List.mem_cons_of_mem x hy)]
    rfl

namespace Output
variable {o : Output}

theorem trim_of_silent (h : o.silent = true) : Text.trim o.stdout.toList = [] :=
  (Text.trim_eq_nil_iff _).mpr h

theorem records_of_silent (h : o.silent = true) : records o.stdout = .ok [] := by
  rw [records, trim_of_silent h]
  rfl

end Output

namespace Analyzer

def Ruff.alarm : Alarm := { status := (· = 2) }

theorem Ruff.heeds : Ruff.alarm.Heeded read := .of_silent (fun _ => rfl) (by simp)

def Mypy.alarm : Alarm := { status := (· = 2), stderr := (!Text.blank ·) }

theorem Mypy.heeds : Mypy.alarm.Heeded read := .of_silent (fun _ => rfl) (by simp)

def Vulture.alarm : Alarm := { status := (· = 2), lacking := fun _ => true }

theorem Vulture.heeds : Vulture.alarm.Heeded read := by
  refine .of_always (fun _ => rfl) (by simp) fun o h => ?_
  rw [trim_of_silent h]
  rfl

def Eslint.alarm : Alarm := { status := (· = 2) }

theorem Eslint.heeds : Eslint.alarm.Heeded read := .of_silent (fun _ => rfl) (by simp)

def Tsc.alarm : Alarm := { status := (3 ≤ ·), lacking := fun _ => true }

theorem Tsc.heeds : Tsc.alarm.Heeded read := by
  refine .of_always (fun _ => rfl) (by simp) fun o h => each_eq_nil fun line hline => ?_
  rw [finding, Text.trim_of_mem_splitLines h hline]
  rfl

def Stylelint.alarm : Alarm := { status := Stylelint.isFatal }

theorem Stylelint.heeds : Stylelint.alarm.Heeded read := .of_silent (fun _ => rfl) (by simp)

def Semgrep.alarm : Alarm := { status := (2 ≤ ·) }

theorem Semgrep.heeds : Semgrep.alarm.Heeded read := .of_silent (fun _ => rfl) (by simp)

def Bearer.alarm : Alarm := { status := (2 ≤ ·) }

theorem Bearer.heeds : Bearer.alarm.Heeded read := .of_silent (fun _ => rfl) (by simp)

def GolangciLint.alarm : Alarm := { status := (1 < ·) }

theorem GolangciLint.heeds : GolangciLint.alarm.Heeded read :=
  .of_silent (fun _ => rfl) (by simp)

def Clippy.alarm : Alarm := { status := (Clippy.failure ≤ ·), lacking := fun _ => true }

theorem Clippy.heeds : Clippy.alarm.Heeded read := by
  refine .of_always (fun _ => rfl) (by simp) fun o h => ?_
  rw [records_of_silent h]
  rfl

def Sqlfluff.alarm : Alarm := { status := (3 ≤ ·) }

theorem Sqlfluff.heeds : Sqlfluff.alarm.Heeded read := .of_silent (fun _ => rfl) (by simp)

def Trivy.alarm : Alarm := { status := (0 < ·), stderr := (!Text.blank ·) }

theorem Trivy.heeds : Trivy.alarm.Heeded read := .of_silent (fun _ => rfl) (by simp)

def Jscpd.alarm : Alarm :=
  { status := (1 < ·), lacking := fun o => (o.files.lookup Jscpd.reportName).isNone }

theorem Jscpd.heeds : Jscpd.alarm.Heeded read := by
  constructor
  · intro o h
    simp only [Alarm.raised, alarm, Bool.and_true, Bool.and_eq_true, Option.isNone_iff_eq_none,
      decide_eq_true_eq] at h
    exact ⟨_, by rw [read, h.1]; exact if_pos h.2⟩
  · intro o h hbare
    have hstatus : ¬ 1 < o.status := by simpa [Alarm.raised, alarm, hbare.unreported] using h
    rw [read, hbare.unreported]
    exact if_neg hstatus

def Knip.alarm : Alarm where
  status := (2 ≤ ·)
  stderr s := !(Knip.noPackageMarks.any fun m => Text.contains m.toList s.toList) && !Text.blank s

theorem Knip.heeds : Knip.alarm.Heeded read := by
  constructor
  · intro o h
    simp only [Alarm.raised, alarm, Bool.and_eq_true, Bool.not_eq_true', decide_eq_true_eq] at h
    obtain ⟨⟨hsilent, hstatus⟩, hmarks, hblank⟩ := h
    exact ⟨_, by simp only [read, hsilent, hmarks, hblank, hstatus]; rfl⟩
  · intro o h hbare
    simp only [Alarm.raised, alarm, hbare.silent, Bool.true_and] at h
    rw [read, if_pos hbare.silent]
    cases hmarks : noPackageMarks.any fun m => Text.contains m.toList o.stderr.toList with
    | true => rfl
    | false =>
      rw [hmarks, Bool.not_false, Bool.true_and] at h
      exact (if_neg Bool.false_ne_true).trans (if_neg (Bool.eq_false_iff.mp h))

def Typos.alarm : Alarm := { status := (1 < ·), stderr := (!Text.blank ·) }

theorem Typos.heeds : Typos.alarm.Heeded read := .of_silent (fun _ => rfl) (by simp)

def alarms : List (Analyzer × Alarm) :=
  [(.ruff, Ruff.alarm), (.mypy, Mypy.alarm), (.vulture, Vulture.alarm), (.eslint, Eslint.alarm),
   (.tsc, Tsc.alarm), (.stylelint, Stylelint.alarm), (.semgrep, Semgrep.alarm),
   (.bearer, Bearer.alarm), (.golangciLint, GolangciLint.alarm), (.clippy, Clippy.alarm),
   (.sqlfluff, Sqlfluff.alarm), (.trivy, Trivy.alarm), (.jscpd, Jscpd.alarm),
   (.knip, Knip.alarm), (.typos, Typos.alarm)]

/-- How an analyzer takes an output with nothing to read in it. -/
structure Heeds (a : Analyzer) (x : Alarm) : Prop where
  raised : ∀ o, x.raised o = true → ∃ m, a.read o = .error (.toolOutput m)
  quiet : ∀ o, x.raised o = false → o.Bare → a.read o = .ok (.findings [])

theorem Heeds.of_heeded {a : Analyzer} {x : Alarm} {read : Output → Except Fault (List Finding)}
    (ha : a.read = findings read) (h : x.Heeded read) : a.Heeds x := by
  constructor
  · intro o hraised
    obtain ⟨m, hm⟩ := h.raised o hraised
    exact ⟨m, by rw [ha, findings, hm]; rfl⟩
  · intro o hraised hbare
    rw [ha, findings, h.quiet o hraised hbare]
    rfl

theorem builtin_heeds : ∀ entry ∈ alarms, entry.1.Heeds entry.2 := by
  rw [alarms]
  simp only [List.forall_mem_cons]
  exact ⟨.of_heeded rfl Ruff.heeds, .of_heeded rfl Mypy.heeds, .of_heeded rfl Vulture.heeds,
    .of_heeded rfl Eslint.heeds, .of_heeded rfl Tsc.heeds, .of_heeded rfl Stylelint.heeds,
    .of_heeded rfl Semgrep.heeds, .of_heeded rfl Bearer.heeds,
    .of_heeded rfl GolangciLint.heeds, .of_heeded rfl Clippy.heeds,
    .of_heeded rfl Sqlfluff.heeds, .of_heeded rfl Trivy.heeds, .of_heeded rfl Jscpd.heeds,
    .of_heeded rfl Knip.heeds, .of_heeded rfl Typos.heeds, nofun⟩

theorem alarms_of_neg {n : Int} (hn : n < 0) : ∀ entry ∈ alarms, entry.2.status n = false := by
  simp only [alarms, List.forall_mem_cons, Ruff.alarm, Mypy.alarm, Vulture.alarm, Eslint.alarm,
    Tsc.alarm, Stylelint.alarm, Stylelint.isFatal, Semgrep.alarm, Bearer.alarm, GolangciLint.alarm,
    Clippy.alarm, Clippy.failure, Sqlfluff.alarm, Trivy.alarm, Jscpd.alarm, Knip.alarm,
    Typos.alarm, Bool.or_eq_false_iff, decide_eq_false_iff_not]
  exact ⟨by omega, by omega, by omega, by omega, by omega, by omega, by omega, by omega, by omega,
    decide_eq_false (by omega), by omega, by omega, by omega, by omega, by omega, nofun⟩

theorem alarms_fst : alarms.map Prod.fst = Registry.builtin.analyzers := rfl

theorem exists_alarm {a : Analyzer} (ha : a ∈ Registry.builtin.analyzers) :
    ∃ x, (a, x) ∈ alarms ∧ a.Heeds x ∧ ∀ o : Output, o.status < 0 → x.raised o = false := by
  rw [← alarms_fst] at ha
  obtain ⟨⟨b, x⟩, hentry, rfl⟩ := List.mem_map.mp ha
  refine ⟨x, hentry, builtin_heeds _ hentry, fun o hnegative => ?_⟩
  have hstatus : x.status o.status = false := alarms_of_neg hnegative _ hentry
  rw [Alarm.raised, hstatus, Bool.and_false, Bool.false_and]

end Analyzer
end CodeAudit
