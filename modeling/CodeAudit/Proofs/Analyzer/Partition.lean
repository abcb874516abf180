import CodeAudit.Proofs.Analyzer.Ready
namespace CodeAudit

/-- Each analyzer is either ready or missing, and those that are stand as they were selected. -/
structure Precheck.Parts (p : Precheck) (as : List Analyzer) : Prop where
  ready : p.ready.Sublist as
  missing : p.missing.Sublist as
  all : (p.ready ++ p.missing).Perm as
  disjoint : p.ready.Disjoint p.missing

namespace Host
open Act
variable {h : Host} {as : List Analyzer} {autoInstall : Bool} {p : Precheck}
  {answers : List (Analyzer × Bool)} {u v w : World}

theorem mem_available {a : Analyzer} : a ∈ available answers ↔ (a, true) ∈ answers := by
  simp [available]

/-- Where none is missing, all were found. -/
theorem available_eq (hnone : unavailable answers = []) : available answers = answers.map (·.1) := by
  have hall : answers.filter (·.2) = answers := by
    rw [List.filter_eq_self]
    intro answer hmem
    by_contra hmissing
    have hin : answer.1 ∈ unavailable answers :=
      List.mem_map_of_mem (List.mem_filter.mpr ⟨hmem, by simpa using hmissing⟩)
    rw [hnone] at hin
    exact List.not_mem_nil hin
  rw [available, hall]

/-- The analyzers of a selection in which no two have the same name are parted into those that are
ready and those that are missing. Each is looked for once. If none is missing, nothing else happens,
nor if none is to be installed; else there is one attempt for each that is missing, in order, with
one warning. -/
theorem precheck_parts (h : Host) (as : List Analyzer) (hn : (as.map (·.name)).Nodup)
    (autoInstall : Bool) (p : Precheck) (w w' : World)
    (hp : (h.precheck as autoInstall).on w = (.ok p, w')) :
    ∃ answers u, Dealt h.Answers h.Probes as w answers u ∧ p.Parts as ∧
      (unavailable answers = [] → p = { ok := true, ready := as } ∧ w' = u) ∧
      (autoInstall = false →
        (p.ok = false ↔ ∃ a, (a, false) ∈ answers) ∧ p.ready = available answers ∧
        p.missing = unavailable answers ∧ p.warnings = [] ∧
        (p.ok = true → p.message = none) ∧
        (p.ok = false → ∃ text, p.message = some text ∧ Install.Lists text p.missing) ∧ w' = u) ∧
      (autoInstall = true → ∃ attempts,
        Dealt h.Attempt h.Installs (unavailable answers) u attempts w' ∧ p.ok = true ∧
        p.message = none ∧ p.warnings = attempts.map installWarning ∧
        p.missing = unavailable attempts ∧
        ∀ a, a ∈ p.ready ↔ (a, true) ∈ answers ∨ (a, true) ∈ attempts) := by
  obtain ⟨hready, hall⟩ := precheck_ready hn hp
  have hnodup : as.Nodup := hn.of_map _
  have hdisjoint : p.ready.Disjoint p.missing :=
    List.disjoint_of_nodup_append (hall.nodup_iff.mpr hnodup)
  obtain ⟨answers, u, hprobed⟩ := probeAll_answers h as w
  have hdealt := probeAll_dealt hprobed
  have hmissing : (unavailable answers).Sublist as := hdealt.items ▸ unavailable_sublist answers
  refine ⟨answers, u, hdealt, ?_⟩
  rw [precheck_on h hprobed] at hp
  by_cases hnone : unavailable answers = []
  · rw [if_pos hnone] at hp
    cases hp
    have hfound : available answers = as := (available_eq hnone).trans hdealt.items
    refine ⟨⟨hready, List.nil_sublist as, hall, hdisjoint⟩, fun _ => ⟨?_, rfl⟩, fun _ => ?_,
      fun _ => ⟨[], ?_, rfl, rfl, rfl, rfl, fun a => ?_⟩⟩
    · rw [hfound]
    · refine ⟨?_, rfl, hnone.symm, rfl, fun _ => rfl, nofun, rfl⟩
      rw [← unavailable_ne_nil, hnone]
      simp
    · rw [hnone]
      exact ⟨rfl, .nil _, [], by simp, .nil⟩
    · rw [mem_available]
      simp
  · rw [if_neg hnone] at hp
    cases autoInstall with
    | false =>
      cases hp
      refine ⟨⟨hready, hmissing, hall, hdisjoint⟩, fun h => absurd h hnone, fun _ => ?_, nofun⟩
      exact ⟨iff_of_true rfl ((unavailable_ne_nil answers).mp hnone), rfl, rfl, rfl, nofun,
        fun _ => ⟨_, rfl, Install.message_lists _⟩, rfl⟩
    | true =>
      obtain ⟨attempts, hmade, rfl⟩ := map_eq_ok.mp (congrArg Prod.fst hp)
      have hleft : ((h.installAll (unavailable answers)).on u).2 = w' := congrArg Prod.snd hp
      obtain ⟨hitems, hturn⟩ := installAll_ok_iff.mp (Prod.ext hmade hleft)
      have hattempts : Dealt h.Attempt h.Installs (attempts.map (·.1)) u attempts w' :=
        hturn.dealt Attempt.launches
      rw [hitems] at hattempts
      have hfailed : (unavailable attempts).Sublist (unavailable answers) :=
        hitems ▸ unavailable_sublist attempts
      refine ⟨⟨hready, hfailed.trans hmissing, hall, hdisjoint⟩, fun h => absurd h hnone, nofun,
        fun _ => ⟨attempts, hattempts, rfl, rfl, rfl, rfl, fun a => ?_⟩⟩
      change a ∈ inOrderOf as (available answers ++ available attempts) ↔ _
      rw [inOrderOf, List.mem_mergeSort, List.mem_append, mem_available, mem_available]

/-- A host with a program that installs at once whatever it is asked for. -/
def installingHost : Host where
  programs := [(["bin", "inst"], fun _ files => .ok { files })]
  searchPath := ["/bin"]
  home := ⟨.root, ["home"]⟩
  workingDir := ⟨.root, []⟩
  temporary := ⟨.root, ["tmp"]⟩
  bundled := ⟨.root, ["bundled"]⟩
  date := .ofSeconds 0

def installingWorld : World where
  files := .directory [("bin", .directory [("inst", .file [] true)])]

def promising (key : Nat) (name : String) (answers : List (Except Fault Bool)) : Analyzer where
  name
  extensions := [".py"]
  installHint := "inst"
  presence := .told key answers
  build _ := .error .emptyCommand
  read _ := .ok (.findings [])

/-- Analyzers of which one cannot be asked, one is there once it is installed, and one is there. -/
def promisingAnalyzers : List Analyzer :=
  [promising 0 "flaky" [.error (.raised "OSError" "")], promising 1 "late" [.ok false, .ok true],
   promising 2 "early" [.ok true]]

private theorem promising_precheck : ∃ p w',
    (installingHost.precheck promisingAnalyzers true).on installingWorld = (.ok p, w') ∧
      p.missing.map (·.name) = ["flaky"] ∧
      p.warnings = ["flaky: auto-install failed, install manually: inst",
        "late: auto-installed successfully"] ∧ w'.launches.length = 2 := by
  have hends : ((installingHost.precheck promisingAnalyzers true).on installingWorld).1.toOption.map
        (fun p => (p.missing.map (·.name), p.warnings)) = some (["flaky"],
          ["flaky: auto-install failed, install manually: inst",
            "late: auto-installed successfully"]) ∧
      ((installingHost.precheck promisingAnalyzers true).on installingWorld).2.launches.length =
        2 := by
    decide +kernel
  rcases hp : (installingHost.precheck promisingAnalyzers true).on installingWorld with ⟨x, w'⟩
  rw [hp] at hends
  obtain ⟨hsome, hlaunches⟩ := hends
  obtain ⟨p, hok, htold⟩ := Option.map_eq_some_iff.mp hsome
  obtain ⟨hmissing, hwarnings⟩ := Prod.mk.inj htold
  obtain rfl := toOption_eq_some.mp hok
  exact ⟨p, w', rfl, hmissing, hwarnings, hlaunches⟩

theorem precheck_parts_promising :
    ∃ p w', (installingHost.precheck promisingAnalyzers true).on installingWorld = (.ok p, w') ∧
      p.Parts promisingAnalyzers ∧ p.ok = true ∧ p.missing.map (·.name) = ["flaky"] ∧
      p.warnings = ["flaky: auto-install failed, install manually: inst",
        "late: auto-installed successfully"] ∧ w'.launches.length = 2 := by
  obtain ⟨p, w', hp, hmissing, hwarnings, hlaunches⟩ := promising_precheck
  obtain ⟨answers, u, -, hparts, -, -, hinstalled⟩ := precheck_parts installingHost
    promisingAnalyzers (by decide) true p installingWorld w' hp
  obtain ⟨attempts, -, hok, -⟩ := hinstalled rfl
  exact ⟨p, w', hp, hparts, hok, hmissing, hwarnings, hlaunches⟩

end Host
end CodeAudit
