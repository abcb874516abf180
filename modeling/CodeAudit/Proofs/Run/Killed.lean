import CodeAudit.Proofs.Analyzer.Alarm
import CodeAudit.Proofs.Run.Gated
import CodeAudit.Proofs.Run.Still
namespace CodeAudit.Host
open Act
variable (h : Host) {a : Analyzer} {config : ToolConfig} {target : Path} {o : RunOptions}
  {w : World} {c : Command} {reaction : Reaction}

/-- No report is in the scratch directory of a run once the files are these. -/
def Unreported (a : Analyzer) (w : World) (files : FileTree) : Prop :=
  ∀ path, h.scratchOf a w = .ok (some path) →
    ∀ left, ((h.scratchFiles path).on { w with files }).1 = .ok left →
      left.lookup Analyzer.Jscpd.reportName = none

theorem start_files {s : Start} {path : String} {v : World}
    (hs : (h.start s).on w = (.ok (path, reaction), v)) : v.files = reaction.files := by
  rw [start_on] at hs
  split at hs
  · cases hs
  · split at hs
    · cases hs
    · cases hs
      rfl

theorem start_of_exited {limit : Double} (he : h.ending limit c w = .exited reaction) :
    ∃ path v, (h.start c.start).on w = (.ok (path, reaction), v) := by
  rcases hs : (h.start c.start).on w with ⟨_ | ⟨path, r⟩, v⟩
  · rw [ending, hs] at he
    cases he
  · rw [ending, hs] at he
    dsimp only at he
    split at he
    · cases he
    · split at he
      · cases he
        exact ⟨path, v, rfl⟩
      · cases he

theorem after_files {limit : Double} (he : h.ending limit c w = .exited reaction) :
    (h.after limit c w).files = reaction.files := by
  obtain ⟨left, hafter⟩ := h.after_world limit c w
  obtain ⟨path, v, hs⟩ := h.start_of_exited he
  have hfiles : v.files = reaction.files := h.start_files hs
  rw [hafter, hs]
  exact hfiles

/-- What an analyzer reads when its own command has ended. -/
theorem courseFrom_reads {r : Request} {limit : Double} {tidied : List (Command × Ending)}
    {command : Command}
    (hown : (h.courseFrom a r limit tidied command w).own = some (c, .exited reaction)) :
    ∃ v, v.files = reaction.files ∧ ∀ reading, a.read (h.output r reaction v) = .ok reading →
      (h.courseFrom a r limit tidied command w).reading = some reading := by
  have he : h.ending limit command w = .exited reaction := by
    rw [(h.courseFrom_own a r limit tidied command w).2] at hown
    exact (Prod.mk.inj (Option.some.inj hown)).2
  refine ⟨h.after limit command w, h.after_files he, fun reading hread => ?_⟩
  rw [courseFrom, he]
  dsimp only
  rw [hread]

theorem course_reads {r : Request} (hown : (h.course a r o w).own = some (c, .exited reaction)) :
    ∃ v, v.files = reaction.files ∧ ∀ reading, a.read (h.output r reaction v) = .ok reading →
      (h.course a r o w).reading = some reading := by
  rw [course] at hown ⊢
  cases hpre : (if o.fix then a.preFix r else .ok [] : Except Fault (List Command)) with
  | error f =>
    rw [hpre] at hown
    cases hown
  | ok commands =>
    rw [hpre] at hown
    dsimp only at hown ⊢
    split at hown
    · cases hown
    · next hnone =>
      rw [if_neg hnone]
      cases hb : a.build r with
      | error f =>
        rw [hb] at hown
        cases hown
      | ok command =>
        rw [hb] at hown
        exact h.courseFrom_reads hown

theorem output_unreported {r : Request} {files : FileTree} {v : World}
    (hs : h.scratchOf a w = .ok r.scratch) (hnone : h.Unreported a w files)
    (hv : v.files = files) :
    (h.output r reaction v).files.lookup Analyzer.Jscpd.reportName = none := by
  rw [output]
  dsimp only
  cases hscratch : r.scratch with
  | none => rfl
  | some path =>
    obtain ⟨left, hleft⟩ := h.scratchFiles_on path v
    have hsame := (Still.looks_scratchFiles (h := h) path { w with files }).2 v hv
    rw [hleft] at hsame
    dsimp only
    rw [hleft]
    exact hnone path (hscratch ▸ hs) left hsame.symm

/-- What an outcome tells when the analyzer's own command has left nothing to read, and so nothing is
found. -/
theorem runTool_bare (hown : (h.courseOf a config target o w).own = some (c, .exited reaction))
    (hblank : Text.blank (lossyText reaction.stdout) = true)
    (hnone : h.Unreported a w reaction.files)
    (hread : ∀ output : Output, output.Bare → output.status = reaction.status →
      a.read output = .ok (.findings [])) :
    ∃ x v, (h.runTool a config target o).on w = (.ok x, v) ∧
      x.error = (h.courseOf a config target o w).stuck.map Fault.summary ∧ x.findings = [] := by
  obtain ⟨x, v, hrun, htells, hfault⟩ := h.exists_tells a config target o w
  refine ⟨x, v, hrun, ?_⟩
  cases hstuck : (h.courseOf a config target o w).stuck with
  | some f => exact hfault f hstuck
  | none =>
    refine (htells hstuck).read [] ?_
    cases hs : h.scratchOf a w with
    | error f =>
      rw [(h.courseOf_raised hs config target o).2] at hown
      cases hown
    | ok scratch =>
      obtain ⟨u, stuck, hcourse⟩ := h.courseOf_eq hs config target o
      rw [hcourse] at hown ⊢
      obtain ⟨v', hv', hreads⟩ := h.course_reads hown
      apply hreads
      exact hread _ ⟨hblank, h.output_unreported hs hnone hv'⟩ rfl

/-- A built-in analyzer with nothing to read fails exactly where its alarm is raised, which no
negative status does: it finds nothing then, and a run whose program is killed before it prints or
reports anything has an outcome without findings, and without an error unless its scratch directory
cannot be taken away. -/
theorem runTool_killed (ha : a ∈ Registry.builtin.analyzers) :
    ∃ x, (a, x) ∈ Analyzer.alarms ∧
      (∀ output : Output, output.Bare →
        ((∃ m, a.read output = .error (.toolOutput m)) ↔ x.raised output = true) ∧
        (output.status < 0 → a.read output = .ok (.findings []))) ∧
      ∀ (h : Host) config target o w c reaction,
        (h.courseOf a config target o w).own = some (c, .exited reaction) →
        reaction.status < 0 → Text.blank (lossyText reaction.stdout) = true →
        h.Unreported a w reaction.files →
        ∃ x v, (h.runTool a config target o).on w = (.ok x, v) ∧
          x.error = (h.courseOf a config target o w).stuck.map Fault.summary ∧
          x.findings = [] := by
  obtain ⟨alarm, hentry, hheeds, hnever⟩ := Analyzer.exists_alarm ha
  have hclean (output : Output) (hbare : output.Bare) (hnegative : output.status < 0) :
      a.read output = .ok (.findings []) :=
    hheeds.quiet output (hnever output hnegative) hbare
  refine ⟨alarm, hentry, fun output hbare => ⟨?_, hclean output hbare⟩, ?_⟩
  · constructor
    · rintro ⟨m, hm⟩
      cases hraised : alarm.raised output with
      | true => rfl
      | false =>
        rw [hheeds.quiet output hraised hbare] at hm
        cases hm
    · exact hheeds.raised output
  · intro h config target o w c reaction hown hnegative hblank hnone
    apply h.runTool_bare hown hblank hnone
    intro output hbare hstatus
    exact hclean output hbare (hstatus ▸ hnegative)

def killedHost : Host :=
  { ruffHost with programs := [(["bin", "ruff"], fun _ files => .ok { files, status := -9 })] }

def killedReaction : Reaction := { files := ruffWorld.files, status := -9 }

theorem runTool_killed_ruff :
    ∃ x v, (killedHost.runTool .ruff bundledConfig ⟨.root, []⟩ {}).on ruffWorld = (.ok x, v) ∧
      x.error = none ∧ x.findings = [] := by
  have hbuiltin : Analyzer.ruff ∈ Registry.builtin.analyzers := List.mem_cons_self
  have hstart : ((killedHost.start (ruffCheck "--no-fix").start).on ruffWorld).1 =
      .ok ("/bin/ruff", killedReaction) := by rfl
  have hending : killedHost.ending (.ofInt 120) (ruffCheck "--no-fix") ruffWorld =
      .exited killedReaction := killedHost.ending_at_once hstart rfl
  let o : RunOptions := {}
  let r := o.request ⟨.root, []⟩ bundledConfig none
  have hplain : killedHost.courseOf .ruff bundledConfig ⟨.root, []⟩ o ruffWorld =
      killedHost.course .ruff r o ruffWorld := if_neg Bool.false_ne_true
  have hbuild : Analyzer.ruff.build r = .ok (ruffCheck "--no-fix") := rfl
  have hthrough := killedHost.course_through (a := .ruff) (o := o) (w := ruffWorld) rfl hbuild
    (by simp [tidied])
  have htimeout : o.timeout = .ofInt 120 := by simp only [o]
  have hown : (killedHost.courseOf .ruff bundledConfig ⟨.root, []⟩ o ruffWorld).own =
      some (ruffCheck "--no-fix", .exited killedReaction) := by
    rw [hplain, hthrough, (courseFrom_own ..).2, htimeout, tidied, hending]
  have hnone : killedHost.Unreported .ruff ruffWorld killedReaction.files := by
    intro path hpath
    cases hpath
  obtain ⟨_, _, _, hrun⟩ := runTool_killed hbuiltin
  have hclean := hrun killedHost bundledConfig ⟨.root, []⟩ o ruffWorld _ _ hown (by decide)
    (by decide) hnone
  rwa [killedHost.courseOf_stuck rfl] at hclean

end CodeAudit.Host
