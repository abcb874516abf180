import CodeAudit.Proofs.Analyzer.Commands
import CodeAudit.Proofs.Run.Tried
namespace CodeAudit

/-- What an analyzer is asked to do with fixes or without, whatever its configuration allows. -/
def RunOptions.asking (o : RunOptions) (target : Path) (config : ToolConfig)
    (scratch : Option Path) (fix : Bool) : Request :=
  { target, config := config.path, files := o.files, fix, licenses := o.licenses, scratch }

namespace Host
open Act
variable (h : Host) {a : Analyzer} {config : ToolConfig} {target : Path} {o : RunOptions}
  {w : World} {scratch : Option Path}

/-- The scratch directory of a run: none if the analyzer wants none. -/
def scratchOf (a : Analyzer) (w : World) : Except Fault (Option Path) :=
  if a.usesScratch then ((h.makeScratch a).on w).1.map some else .ok none

/-- What becomes of a wish for fixes in a run with a scratch directory: `command` is what the
analyzer's own command is, `plain` is it without fixes, `requested` as it was asked for. -/
structure Gated (h : Host) (a : Analyzer) (config : ToolConfig) (target : Path) (o : RunOptions)
    (w : World) (scratch : Option Path) (x : Outcome) (command plain requested : Command) :
    Prop where
  builds : a.build (o.asking target config scratch (o.fix && config.tier != .bundledDefault)) =
    .ok command
  buildsPlain : a.build (o.asking target config scratch false) = .ok plain
  buildsRequested : a.build (o.asking target config scratch o.fix) = .ok requested
  own : ∀ t, (h.courseOf a config target o w).own = some t → t.1 = command
  stopped : (h.courseOf a config target o w).own = none →
    ∃ t ∈ (h.courseOf a config target o w).tidied, t.2.stops = true
  unasked : ∃ ending,
    (h.courseOf a config target { o with fix := false } w).own = some (plain, ending)
  bundled : config.tier = .bundledDefault → command.argv = plain.argv
  elsewhere : config.tier ≠ .bundledDefault → command.argv = requested.argv
  skipped : x.fixSkipped = true ↔ command.argv ≠ requested.argv

theorem courseOf_eq (hs : h.scratchOf a w = .ok scratch) (config : ToolConfig) (target : Path)
    (o : RunOptions) :
    ∃ v stuck, h.courseOf a config target o w =
      (h.course a (o.request target config scratch) o v).withStuck stuck := by
  unfold scratchOf at hs
  unfold courseOf
  split at hs
  · next hwants =>
    rw [if_pos hwants]
    rcases hm : (h.makeScratch a).on w with ⟨made, v⟩
    rw [hm] at hs
    cases made with
    | error f => cases hs
    | ok path =>
      cases hs
      exact ⟨v, _, rfl⟩
  · next hwants =>
    cases hs
    refine ⟨w, none, (if_neg hwants).trans ?_⟩
    rw [Course.withStuck_none (h.course_stuck ..)]

theorem courseOf_raised {f : Fault} (hs : h.scratchOf a w = .error f) (config : ToolConfig)
    (target : Path) (o : RunOptions) :
    a.usesScratch = true ∧ h.courseOf a config target o w = { raised := some f } := by
  unfold scratchOf at hs
  unfold courseOf
  split at hs
  · next hwants =>
    refine ⟨hwants, ?_⟩
    rw [if_pos hwants]
    rcases hm : (h.makeScratch a).on w with ⟨made, v⟩
    rw [hm] at hs
    cases made with
    | error g =>
      cases hs
      rfl
    | ok path => cases hs
  · cases hs

theorem scratchOf_isSome (hs : h.scratchOf a w = .ok scratch) (hwants : a.usesScratch = true) :
    scratch.isSome = true := by
  rw [scratchOf, if_pos hwants] at hs
  obtain ⟨path, -, rfl⟩ := map_eq_ok.mp hs
  rfl

/-- An analyzer comes to its own command once all commands before are through. -/
theorem course_through {r : Request} {commands : List Command} {c : Command}
    (hp : (if o.fix then a.preFix r else .ok []) = .ok commands) (hb : a.build r = .ok c)
    (ht : ∀ t ∈ (h.tidied o.timeout commands w).1, t.2.stops = false) :
    h.course a r o w = h.courseFrom a r o.timeout (h.tidied o.timeout commands w).1 c
      (h.tidied o.timeout commands w).2 := by
  have hnone : ¬ (h.tidied o.timeout commands w).1.any (·.2.stops) = true := by simpa using ht
  rw [course, hp]
  dsimp only
  rw [if_neg hnone, hb]

/-- An analyzer comes to its own command unless a command before stops the course. -/
theorem course_own {r : Request} {command : Command} (ha : a.Truthful)
    (hb : a.build r = .ok command) (o : RunOptions) (w : World) :
    (∃ ending, (h.course a r o w).own = some (command, ending)) ∨
      o.fix = true ∧ (h.course a r o w).own = none ∧
        ∃ t ∈ (h.course a r o w).tidied, t.2.stops = true := by
  obtain ⟨commands, hcommands, hnone⟩ : ∃ commands,
      (if o.fix then a.preFix r else .ok []) = .ok commands ∧ (o.fix = false → commands = []) := by
    cases o.fix with
    | true =>
      obtain ⟨commands, hcommands⟩ := ha.tidies r
      exact ⟨commands, hcommands, nofun⟩
    | false => exact ⟨[], rfl, fun _ => rfl⟩
  by_cases hany : (h.tidied o.timeout commands w).1.any (·.2.stops) = true
  · have hstops : h.course a r o w = { tidied := (h.tidied o.timeout commands w).1 } := by
      rw [course, hcommands]
      exact if_pos hany
    rw [hstops]
    refine .inr ⟨?_, rfl, List.any_eq_true.mp hany⟩
    cases hfix : o.fix with
    | true => rfl
    | false =>
      rw [hnone hfix] at hany
      cases hany
  · rw [h.course_through hcommands hb (by simpa using hany)]
    exact .inl ⟨_, (h.courseFrom_own a r o.timeout _ command _).2⟩

theorem gated_of_truthful (ha : a.Truthful) (hs : h.scratchOf a w = .ok scratch) {x : Outcome}
    (hx : x.fixSkipped = (o.fix && a.supportsFix && config.tier == .bundledDefault)) :
    ∃ command plain requested, h.Gated a config target o w scratch x command plain requested := by
  have hbuilds (fix : Bool) : ∃ c, a.build (o.asking target config scratch fix) = .ok c :=
    ha.builds _ fun hwants => h.scratchOf_isSome hs hwants
  obtain ⟨command, hcommand⟩ := hbuilds (o.fix && config.tier != .bundledDefault)
  obtain ⟨plain, hplain⟩ := hbuilds false
  obtain ⟨requested, hrequested⟩ := hbuilds o.fix
  obtain ⟨v, stuck, hcourse⟩ := h.courseOf_eq hs config target o
  obtain ⟨v', stuck', hcourse'⟩ := h.courseOf_eq hs config target { o with fix := false }
  have hown : (∃ ending, (h.courseOf a config target o w).own = some (command, ending)) ∨
      o.fix = true ∧ (h.courseOf a config target o w).own = none ∧
        ∃ t ∈ (h.courseOf a config target o w).tidied, t.2.stops = true := by
    rw [hcourse]
    exact h.course_own (r := o.request target config scratch) ha hcommand o v
  refine ⟨command, plain, requested, hcommand, hplain, hrequested, ?_, ?_, ?_, ?_, ?_, ?_⟩
  · intro t ht
    rcases hown with ⟨ending, hsome⟩ | ⟨-, hnone, -⟩
    · rw [hsome] at ht
      cases ht
      rfl
    · rw [hnone] at ht
      cases ht
  · intro hnone
    rcases hown with ⟨ending, hsome⟩ | ⟨-, -, hstopped⟩
    · rw [hsome] at hnone
      cases hnone
    · exact hstopped
  · rcases h.course_own (r := RunOptions.request { o with fix := false } target config scratch) ha
      hplain { o with fix := false } v' with hsome | ⟨hfix, -⟩
    · rwa [hcourse']
    · cases hfix
  · intro htier
    rw [htier, bne_self_eq_false, Bool.and_false, hplain] at hcommand
    cases hcommand
    rfl
  · intro htier
    rw [bne_iff_ne.mpr htier, Bool.and_true, hrequested] at hcommand
    cases hcommand
    rfl
  · have hwithheld := ha.withheld (r := o.asking target config scratch false) hcommand hrequested
    rw [hx, hwithheld, bne, Bool.not_not]

theorem runTool_fixSkipped (a : Analyzer) (config : ToolConfig) (target : Path) (o : RunOptions)
    (w : World) :
    ∃ x v, (h.runTool a config target o).on w = (.ok x, v) ∧
      x.fixSkipped = (o.fix && a.supportsFix && config.tier == .bundledDefault) := by
  refine ⟨_, _, h.runTool_on a config target o w, ?_⟩
  rw [(told_keeps _ _).2]
  simp [ToolConfig.allowsFix, bne]

/-- Fixes never go beyond what the configuration allows, whatever the analyzer: its own command is
the one for the fixes that are allowed, and an outcome says that they were skipped exactly if that
command is not the one that was asked for. What was tried is what was started. -/
theorem runTool_gated (ha : a ∈ Registry.builtin.analyzers) (config : ToolConfig) (target : Path)
    (o : RunOptions) (w : World) :
    ∃ x v, (h.runTool a config target o).on w = (.ok x, v) ∧
      h.Tried (h.courseOf a config target o w).tried w v ∧
      (∀ f, h.scratchOf a w = .error f →
        (h.courseOf a config target o w).tried = [] ∧ x.fixSkipped = false) ∧
      ∀ scratch, h.scratchOf a w = .ok scratch → ∃ command plain requested,
        h.Gated a config target o w scratch x command plain requested := by
  obtain ⟨x, v, hrun, hskipped⟩ := h.runTool_fixSkipped a config target o w
  have htried := h.tried_runTool a config target o w
  rw [hrun] at htried
  refine ⟨x, v, hrun, htried, fun f hf => ?_, fun scratch hs => ?_⟩
  · obtain ⟨hwants, hraised⟩ := h.courseOf_raised hf config target o
    rw [hraised, hskipped, Analyzer.builtin_scratch a ha hwants, Bool.and_false, Bool.false_and]
    exact ⟨rfl, rfl⟩
  · exact h.gated_of_truthful (Analyzer.builtin_truthful a ha) hs hskipped

def ruffHost : Host :=
  { idleHost with
    programs := [(["bin", "ruff"], fun _ files => .ok { files })]
    searchPath := ["/bin"] }

def ruffWorld : World where
  files := .directory [("bin", .directory [("ruff", .file [] true)])]

def bundledConfig : ToolConfig := ⟨some ⟨.root, ["bundled", "ruff.toml"]⟩, .bundledDefault⟩

/-- What ruff is started with when it is asked to look at everything. -/
def ruffCommand (words : List String) : Command :=
  ⟨"ruff", words ++ ["--config", "/bundled/ruff.toml", "/"], none⟩

private theorem ruff_exits {c : Command} {l : Launch} {w : World} (hw : w.files = ruffWorld.files)
    (hp : ruffHost.prepare ruffWorld.files c.start = .ok ("/bin/ruff", l))
    (hl : l.program = ["bin", "ruff"]) :
    ruffHost.ending (.ofInt 120) c w = .exited { files := ruffWorld.files } ∧
      (ruffHost.after (.ofInt 120) c w).files = ruffWorld.files := by
  have hreact : ruffHost.react ruffWorld.files "/bin/ruff" l =
      .ok { files := ruffWorld.files } := by
    rw [react, hl]
    rfl
  have hstart : (ruffHost.start c.start).on w = (.ok ("/bin/ruff", { files := ruffWorld.files }),
      { w with launches := w.launches ++ [l], files := ruffWorld.files }) := by
    rw [start_on, hw, hp]
    dsimp only
    rw [hreact]
  obtain ⟨left, hafter⟩ := ruffHost.after_world (.ofInt 120) c w
  rw [hafter, hstart]
  exact ⟨ruffHost.ending_at_once (congrArg Prod.fst hstart) rfl, rfl⟩

def fixingOptions : RunOptions := { fix := true }

def ruffFormat : Command := ruffCommand ["format"]

def ruffCheck (fix : String) : Command := ruffCommand ["check", "--output-format", "json", fix]

private theorem ruff_tried :
    (ruffHost.courseOf .ruff bundledConfig ⟨.root, []⟩ fixingOptions ruffWorld).tried =
      [(ruffFormat, .exited { files := ruffWorld.files }),
        (ruffCheck "--no-fix", .exited { files := ruffWorld.files })] := by
  obtain ⟨htidy, hfiles⟩ := ruff_exits (c := ruffFormat) (w := ruffWorld) rfl rfl rfl
  obtain ⟨hown, -⟩ := ruff_exits (c := ruffCheck "--no-fix") hfiles rfl rfl
  have htimeout : fixingOptions.timeout = .ofInt 120 := by simp only [fixingOptions]
  have htidied : ruffHost.tidied fixingOptions.timeout [ruffFormat] ruffWorld =
      ([(ruffFormat, .exited { files := ruffWorld.files })],
        ruffHost.after (.ofInt 120) ruffFormat ruffWorld) := by
    rw [tidied, htimeout, htidy]
    simp [Ending.stops, tidied]
  let r := fixingOptions.request ⟨.root, []⟩ bundledConfig none
  have hpreFix : (if fixingOptions.fix then Analyzer.ruff.preFix r else .ok []) =
      .ok [ruffFormat] := rfl
  have hbuild : Analyzer.ruff.build r = .ok (ruffCheck "--no-fix") := rfl
  have hthrough := ruffHost.course_through (w := ruffWorld) hpreFix hbuild (by
    rw [htidied]
    simp [Ending.stops])
  have hplain : ruffHost.courseOf .ruff bundledConfig ⟨.root, []⟩ fixingOptions ruffWorld =
      ruffHost.course .ruff r fixingOptions ruffWorld := if_neg Bool.false_ne_true
  rw [hplain, hthrough, courseFrom_tried, htidied, htimeout, hown]
  rfl

/-- Under the defaults that come with the program ruff is started without fixes, and its outcome
says so. -/
theorem runTool_gated_bundled :
    ∃ x v, (ruffHost.runTool .ruff bundledConfig ⟨.root, []⟩ fixingOptions).on ruffWorld =
        (.ok x, v) ∧ x.fixSkipped = true ∧
      v.launches.map (·.args) = [ruffFormat.args, (ruffCheck "--no-fix").args] := by
  obtain ⟨x, v, hrun, ⟨parts, hlaunches, hleaves⟩, -, hgated⟩ :=
    ruffHost.runTool_gated (a := .ruff) (by simp [Registry.builtin]) bundledConfig ⟨.root, []⟩
      fixingOptions ruffWorld
  obtain ⟨command, plain, requested, hgate⟩ := hgated none rfl
  have hcommand : ruffCheck "--no-fix" = command := Except.ok.inj hgate.builds
  have hrequested : ruffCheck "--fix" = requested := Except.ok.inj hgate.buildsRequested
  refine ⟨x, v, hrun, hgate.skipped.mpr ?_, ?_⟩
  · rw [← hcommand, ← hrequested]
    decide
  · rw [ruff_tried] at hleaves
    obtain ⟨first, rest, hfirst, hrest, rfl⟩ := List.forall₂_cons_left_iff.mp hleaves
    obtain ⟨second, none, hsecond, hnone, rfl⟩ := List.forall₂_cons_left_iff.mp hrest
    cases hnone
    simp [hlaunches, hfirst.args, hsecond.args, ruffWorld]

end Host
end CodeAudit
