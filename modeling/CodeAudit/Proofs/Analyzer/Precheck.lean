import CodeAudit.Analyzer.Precheck
import CodeAudit.Proofs.Process.Launches
import CodeAudit.Proofs.Registry.Distinct
import Mathlib.Data.List.Forall2
namespace CodeAudit

namespace Install

/-- Lines tell of a missing analyzer: its name with its file endings, each once and in order, and
how to install it. -/
def Tells (a : Analyzer) (lines : List String) : Prop :=
  ∃ endings : List String, endings.Pairwise (fun x y => Text.Precedes x.toList y.toList) ∧
    (∀ ending, ending ∈ endings ↔ ending ∈ a.extensions) ∧
    lines = ["  " ++ a.name ++ " (needed for " ++ ", ".intercalate endings ++ " files)",
      "    Install: " ++ a.installHint, ""]

/-- A message lists analyzers: under a heading it tells of each of them in order and of no other. -/
def Lists (message : String) (missing : List Analyzer) : Prop :=
  ∃ entries, List.Forall₂ Tells missing entries ∧
    message = "\n".intercalate
      ("[PRECHECK FAILED] Missing tools for detected languages:" :: "" :: (entries.flatten ++
        ["Run with --auto-install to install missing tools automatically."]))

theorem advice_tells (a : Analyzer) : Tells a (advice a) :=
  ⟨Registry.sortedDistinct a.extensions, Registry.sortedDistinct_increasing _,
    Registry.mem_sortedDistinct _, rfl⟩

theorem message_lists (missing : List Analyzer) : Lists (message missing) missing := by
  refine ⟨missing.map advice, ?_, rfl⟩
  rw [List.forall₂_map_right_iff, List.forall₂_same]
  exact fun a _ => advice_tells a

end Install

/-- What is started to see whether an analyzer is there. -/
def Analyzer.probeStart (a : Analyzer) : Host.Start := ⟨a.binary :: a.versionArgs, none, []⟩

namespace Host
open Act
variable (h : Host)

theorem starts_nextAnswer {p : Launch → Prop} (key : Nat) (answers : List (Except Fault Bool)) :
    (nextAnswer key answers).Starts p := starts_of_eq fun _ => rfl

theorem starts_isInstalled (a : Analyzer) : (h.isInstalled a).Starts (h.Asks a.probeStart) := by
  unfold isInstalled
  cases a.presence with
  | told key answers => exact starts_bind (starts_nextAnswer _ _) fun _ => starts_ofExcept _
  | asked =>
    have hstarted := h.starts_runCommand a.probeStart true (some probeLimit)
    exact starts_bind hstarted fun _ => starts_pure _

theorem starts_probe (a : Analyzer) : (h.probe a).Starts (h.Asks a.probeStart) := by
  refine starts_bind (starts_attempt (h.starts_isInstalled a)) fun answer => ?_
  cases answer with
  | error e => exact starts_pure _
  | ok answer => exact starts_pure _

/-- To look for analyzers, nothing is started but what tells whether one of them is there. -/
theorem starts_probeAll (as : List Analyzer) :
    (h.probeAll as).Starts fun l => ∃ a ∈ as, h.Asks a.probeStart l := by
  induction as with
  | nil => exact starts_pure _
  | cons a rest ih =>
    refine starts_bind ((h.starts_probe a).mono fun l hl => ⟨a, by simp, hl⟩) fun answer => ?_
    refine starts_bind (ih.mono ?_) fun _ => starts_pure _
    intro l h
    obtain ⟨b, hb, hl⟩ := h
    exact ⟨b, List.mem_cons_of_mem a hb, hl⟩

/-- Each analyzer is looked for once, in order. -/
theorem probeAll_analyzers {as : List Analyzer} {answers : List (Analyzer × Bool)} {w w' : World}
    (hp : (h.probeAll as).on w = (.ok answers, w')) : answers.map (·.1) = as := by
  induction as generalizing answers w with
  | nil =>
    cases hp
    rfl
  | cons a rest ih =>
    obtain ⟨answer, v, -, hp⟩ := Act.bind_eq_ok.mp hp
    obtain ⟨others, u, ho, hp⟩ := Act.bind_eq_ok.mp hp
    cases hp
    rw [List.map_cons, ih ho]

/-- The analyzers that were not found. -/
def unavailable (answers : List (Analyzer × Bool)) : List Analyzer :=
  (answers.filter (!·.2)).map (·.1)

theorem unavailable_ne_nil (answers : List (Analyzer × Bool)) :
    unavailable answers ≠ [] ↔ ∃ a, (a, false) ∈ answers := by
  simp [unavailable]

/-- The analyzers that were found. -/
def available (answers : List (Analyzer × Bool)) : List Analyzer :=
  (answers.filter (·.2)).map (·.1)

/-- What a precheck comes to by the answers of the analyzers. -/
theorem precheck_on {as : List Analyzer} {autoInstall : Bool} {answers : List (Analyzer × Bool)}
    {w u : World} (hp : (h.probeAll as).on w = (.ok answers, u)) :
    (h.precheck as autoInstall).on w =
      if unavailable answers = [] then (.ok { ok := true, ready := available answers }, u)
      else if autoInstall = false then
        (.ok {
          ok := false
          ready := available answers
          missing := unavailable answers
          message := some (Install.message (unavailable answers)) }, u)
      else
        (((h.installAll (unavailable answers)).on u).1.map fun attempts => {
          ok := true
          ready := inOrderOf as (available answers ++ available attempts)
          missing := unavailable attempts
          warnings := attempts.map installWarning },
          ((h.installAll (unavailable answers)).on u).2) := by
  rw [precheck, on_bind_ok hp]
  dsimp only
  by_cases hnone : unavailable answers = []
  · rw [if_pos hnone]
    have hempty : ((answers.filter (!·.2)).map (·.1)).isEmpty = true := List.isEmpty_iff.mpr hnone
    rw [if_pos hempty]
    rfl
  · rw [if_neg hnone]
    have hempty : ¬ ((answers.filter (!·.2)).map (·.1)).isEmpty = true :=
      fun hempty => hnone (List.isEmpty_iff.mp hempty)
    rw [if_neg hempty]
    cases autoInstall with
    | false => rfl
    | true => exact on_bind_pure _ _ u

/-- A precheck fails exactly if an analyzer is not found and none is to be installed, and then
nothing happens but that they are looked for. -/
theorem precheck_ok {as : List Analyzer} {autoInstall : Bool} {p : Precheck} {w w' : World}
    (hp : (h.precheck as autoInstall).on w = (.ok p, w')) :
    ∃ answers v, (h.probeAll as).on w = (.ok answers, v) ∧
      (p.ok = false ↔ autoInstall = false ∧ ∃ a, (a, false) ∈ answers) ∧
      (p.ok = false → w' = v ∧ p.message = some (Install.message (unavailable answers))) := by
  obtain ⟨answers, v, hprobed, -⟩ := Act.bind_eq_ok.mp hp
  refine ⟨answers, v, hprobed, ?_⟩
  rw [← unavailable_ne_nil]
  rw [precheck_on h hprobed] at hp
  by_cases hnone : unavailable answers = []
  · rw [if_pos hnone] at hp
    cases hp
    simp [hnone]
  · rw [if_neg hnone] at hp
    cases autoInstall with
    | false =>
      cases hp
      exact ⟨by simp [hnone], fun _ => ⟨rfl, rfl⟩⟩
    | true =>
      obtain ⟨attempts, -, rfl⟩ := map_eq_ok.mp (congrArg Prod.fst hp)
      simp

end Host
end CodeAudit
