import CodeAudit.Proofs.Run.Course
namespace CodeAudit

/-- Findings are read from a document as from the field of an outcome. -/
theorem Outcome.ofFields_findings (tool : String) (v : Json) :
    ofFields [("tool", .text tool), ("findings", v)] =
      match Schema.listOf Finding.ofData v with
      | .ok fs => .ok { tool, findings := fs }
      | .error issues => .error (issues.map (·.under (.field "findings"))) := by
  have htool : Schema.required "tool" Schema.text [("tool", .text tool), ("findings", v)] =
      .ok tool := rfl
  have hfindings : Schema.defaulted "findings" [] (Schema.listOf Finding.ofData)
      [("tool", .text tool), ("findings", v)] =
      (Schema.listOf Finding.ofData v).under (.field "findings") := rfl
  rw [ofFields, htool, hfindings]
  cases Schema.listOf Finding.ofData v with
  | ok fs => rfl
  | error issues => rfl

/-- What an outcome tells of a course, whichever way it ended, if its scratch directory could be
taken away. -/
structure Outcome.Tells (x : Outcome) (limit : Double) (c : Course) : Prop where
  overdue : ∀ command, (command, .overdue) ∈ c.tried →
    x.error = some ("Timeout after " ++ limit.general ++ "s")
  notAwaited : ∀ command problem, problem ≠ .notNumber →
    (command, .notAwaited problem) ∈ c.tried → x.error = some problem.text
  notNumber : ∀ command, c.own = some (command, .notAwaited .notNumber) →
    x.error = some ("Failed to spawn " ++ command.executable ++ ": " ++ LimitProblem.notNumber.text)
  notStarted : ∀ command cause, c.own = some (command, .notStarted cause) →
    x.error = some ("Failed to spawn " ++ command.executable ++ ": " ++ cause.message)
  raised : ∀ f, c.raised = some f → x.error = some f.summary ∧
    (f.message ≠ "" → x.error = some f.message) ∧ ∀ kind, f = .raised kind "" → x.error = some kind
  invalid : ∀ v issues, c.reading = some (.document v) →
    Schema.listOf Finding.ofData v = .error issues →
    x.error = some ("invalid parser output: " ++ (issues.head?.map (·.problem.message)).getD "")
  valid : ∀ v fs, c.reading = some (.document v) → Schema.listOf Finding.ofData v = .ok fs →
    x.error = none ∧ x.findings = fs
  read : ∀ fs, c.reading = some (.findings fs) → x.error = none ∧ x.findings = fs
  ended : c.Ended

namespace Fault

theorem message_raised (kind text : String) : (raised kind text).message = text := rfl

theorem message_toolOutput (text : String) : (toolOutput text).message = text := rfl

theorem summary_of_message {f : Fault} (hm : f.message ≠ "") : f.summary = f.message := by
  unfold summary
  split
  · next kind text =>
    rw [message_raised] at hm ⊢
    exact if_neg (by simpa using hm)
  · next text =>
    rw [message_toolOutput] at hm ⊢
    exact if_neg (by simpa using hm)
  · rfl

end Fault

namespace Host
open Act
variable (h : Host)

/-- The error of an outcome whose document breaks the rules for findings. -/
def rejection (issues : List Schema.Issue) : String :=
  "invalid parser output: " ++ (issues.head?.map (·.problem.message)).getD ""

theorem settle_document (base : Outcome) (v : Json) :
    settle base (.document v) = match Schema.listOf Finding.ofData v with
      | .ok fs => { base with findings := fs }
      | .error issues => { base with error := some (rejection issues) } := by
  rw [settle, Outcome.ofFields_findings]
  cases Schema.listOf Finding.ofData v with
  | ok fs => rfl
  | error issues =>
    cases issues with
    | nil => rfl
    | cons issue rest => rfl

/-- What is told of what an invocation came to. -/
def told (base : Outcome) : Except Fault (Except Failure Reading) → Outcome
  | .error f => { base with error := some f.summary }
  | .ok (.error failure) => { base with error := some failure.message }
  | .ok (.ok reading) => settle base reading

theorem told_keeps (base : Outcome) (answer : Except Fault (Except Failure Reading)) :
    (told base answer).tool = base.tool ∧ (told base answer).fixSkipped = base.fixSkipped := by
  match answer with
  | .error f => exact ⟨rfl, rfl⟩
  | .ok (.error failure) => exact ⟨rfl, rfl⟩
  | .ok (.ok (.findings fs)) => exact ⟨rfl, rfl⟩
  | .ok (.ok (.document v)) =>
    rw [told, settle_document]
    cases Schema.listOf Finding.ofData v with
    | ok fs => exact ⟨rfl, rfl⟩
    | error issues => exact ⟨rfl, rfl⟩

theorem runTool_on (a : Analyzer) (config : ToolConfig) (target : Path) (o : RunOptions)
    (w : World) :
    (h.runTool a config target o).on w =
      let (answer, v) := (h.invokeWithScratch a config target o).on w
      (.ok (told { tool := a.name, duration := h.elapsed a.name
                   fixSkipped := o.fix && a.supportsFix && !config.allowsFix } answer), v) := by
  rw [runTool, on_bind_ok (on_attempt _ w)]
  rcases (h.invokeWithScratch a config target o).on w with ⟨answer, v⟩
  match answer with
  | .error f => rfl
  | .ok (.error failure) => rfl
  | .ok (.ok reading) => rfl

private theorem tells_of_gives {limit : Double} {c : Course} {base : Outcome}
    {answer : Except Fault (Except Failure Reading)} (hg : c.Gives limit answer)
    (hb : base.error = none) : (told base answer).Tells limit c := by
  constructor
  · intro command hmem
    rw [hg.overdue command hmem]
    rfl
  · intro command problem hp hmem
    rw [hg.notAwaited command problem hp hmem]
    rfl
  · intro command hown
    rw [hg.notNumber command hown]
    rfl
  · intro command cause hown
    rw [hg.notStarted command cause hown]
    rfl
  · intro f hf
    rw [hg.raised f hf]
    refine ⟨rfl, fun hm => ?_, fun kind hk => ?_⟩
    · exact congrArg some (Fault.summary_of_message hm)
    · rw [hk]
      rfl
  · intro v issues hv hissues
    rw [hg.reading _ hv, told, settle_document, hissues]
    rfl
  · intro v fs hv hfs
    rw [hg.reading _ hv, told, settle_document, hfs]
    exact ⟨hb, rfl⟩
  · intro fs hfs
    rw [hg.reading _ hfs]
    exact ⟨hb, rfl⟩
  · exact hg.ended

/-- What is told of what a course comes to. -/
private theorem tells_of_comes {limit : Double} {c : Course} {base : Outcome}
    {answer : Except Fault (Except Failure Reading)} (hc : c.Comes limit answer)
    (hb : base.error = none) (hf : base.findings = []) :
    (c.stuck = none → (told base answer).Tells limit c) ∧
      ∀ f, c.stuck = some f → (told base answer).error = some f.summary ∧
        (told base answer).findings = [] := by
  unfold Course.Comes at hc
  cases hs : c.stuck with
  | none =>
    rw [hs] at hc
    exact ⟨fun _ => tells_of_gives hc hb, nofun⟩
  | some f =>
    rw [hs] at hc
    refine ⟨nofun, fun g hg => ?_⟩
    cases hg
    rw [hc]
    exact ⟨rfl, hf⟩

theorem exists_tells (a : Analyzer) (config : ToolConfig) (target : Path) (o : RunOptions)
    (w : World) :
    ∃ x v, (h.runTool a config target o).on w = (.ok x, v) ∧
      ((h.courseOf a config target o w).stuck = none →
        x.Tells o.timeout (h.courseOf a config target o w)) ∧
      ∀ f, (h.courseOf a config target o w).stuck = some f →
        x.error = some f.summary ∧ x.findings = [] :=
  ⟨_, _, h.runTool_on a config target o w,
    tells_of_comes (h.invokeWithScratch_comes a config target o w) rfl rfl⟩

/-- An analyzer always comes to an outcome, which tells of what happened, or of a scratch directory
that could not be taken away in the end. -/
theorem runTool_tells (a : Analyzer) (config : ToolConfig) (target : Path) (o : RunOptions)
    (w : World) :
    ∃ x v, (h.runTool a config target o).on w = (.ok x, v) ∧ x.tool = a.name ∧
      x.fixSkipped = (o.fix && a.supportsFix && config.tier == .bundledDefault) ∧
      ((h.courseOf a config target o w).stuck = none →
        x.Tells o.timeout (h.courseOf a config target o w)) ∧
      ∀ f, (h.courseOf a config target o w).stuck = some f →
        x.error = some f.summary ∧ x.findings = [] := by
  refine ⟨_, _, h.runTool_on a config target o w, (told_keeps _ _).1, ?_,
    tells_of_comes (h.invokeWithScratch_comes a config target o w) rfl rfl⟩
  rw [(told_keeps _ _).2]
  simp [ToolConfig.allowsFix, bne]

/-- Without a scratch directory there is none that could not be taken away. -/
theorem courseOf_stuck {a : Analyzer} (hs : a.usesScratch = false) (config : ToolConfig)
    (target : Path) (o : RunOptions) (w : World) :
    (h.courseOf a config target o w).stuck = none := by
  rw [courseOf, hs]
  exact h.course_stuck a _ o w

/-- A host with a program that ends at once and prints nothing. -/
def idleHost : Host where
  programs := [(["bin", "tool"], fun _ files => .ok { files })]
  home := ⟨.root, ["home"]⟩
  workingDir := ⟨.root, []⟩
  temporary := ⟨.root, ["tmp"]⟩
  bundled := ⟨.root, ["bundled"]⟩
  date := .ofSeconds 0

def idleWorld : World where
  files := .directory [("bin", .directory [("tool", .file [] true)])]

/-- An analyzer that finds nothing whatever is printed. -/
def idleAnalyzer : Analyzer where
  name := "probe"
  extensions := [".py"]
  installHint := ""
  build := fun _ => .ok { executable := "/bin/tool" }
  read := fun _ => .ok (.findings [])

def idleCommand : Command := { executable := "/bin/tool" }

private theorem idle_start : ((idleHost.start idleCommand.start).on idleWorld).1 =
    .ok ("/bin/tool", { files := idleWorld.files }) := by rfl

private theorem idle_course (limit : Double) :
    idleHost.courseOf idleAnalyzer {} ⟨.root, []⟩ { timeout := limit } idleWorld =
      match idleHost.ending limit idleCommand idleWorld with
      | .exited r => { own := some (idleCommand, .exited r), reading := some (.findings []) }
      | ending => { own := some (idleCommand, ending) } := by
  change idleHost.courseFrom idleAnalyzer { target := ⟨.root, []⟩ } limit [] idleCommand
    idleWorld = _
  rw [courseFrom]
  cases idleHost.ending limit idleCommand idleWorld <;> rfl

def idleRun (seconds : Int) : Act Outcome :=
  idleHost.runTool idleAnalyzer {} ⟨.root, []⟩ { timeout := .ofInt seconds }

/-- A run that finds nothing in two minutes is told as failed with a limit that is too long to be
waited for. -/
theorem runTool_tells_long_limit :
    (∃ x v, (idleRun 120).on idleWorld = (.ok x, v) ∧ x.error = none ∧ x.findings = []) ∧
      ∃ x v, (idleRun 3000000).on idleWorld = (.ok x, v) ∧
        x.error = some "timeout is too large" := by
  constructor
  · obtain ⟨x, v, hrun, -, -, htells, -⟩ :=
      idleHost.runTool_tells idleAnalyzer {} ⟨.root, []⟩ { timeout := .ofInt 120 } idleWorld
    replace htells := htells (idleHost.courseOf_stuck rfl _ _ _ _)
    have hending : idleHost.ending (.ofInt 120) idleCommand idleWorld =
        .exited { files := idleWorld.files } := idleHost.ending_at_once idle_start rfl
    refine ⟨x, v, hrun, htells.read [] ?_⟩
    rw [idle_course, hending]
  · obtain ⟨x, v, hrun, -, -, htells, -⟩ :=
      idleHost.runTool_tells idleAnalyzer {} ⟨.root, []⟩ { timeout := .ofInt 3000000 } idleWorld
    replace htells := htells (idleHost.courseOf_stuck rfl _ _ _ _)
    have hlimit : limitProblem? (.ofInt 3000000) = some .beyondWait := by decide +kernel
    have hending : idleHost.ending (.ofInt 3000000) idleCommand idleWorld =
        .notAwaited .beyondWait := by
      rw [ending, idle_start, hlimit]
    refine ⟨x, v, hrun, htells.notAwaited idleCommand .beyondWait (by simp) ?_⟩
    rw [idle_course, hending]
    exact List.mem_singleton_self _

end Host
end CodeAudit
