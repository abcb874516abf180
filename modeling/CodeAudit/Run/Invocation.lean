import CodeAudit.Outcome
import CodeAudit.Process.Run
import CodeAudit.ToolConfig
import CodeAudit.Analyzer.Basic
namespace CodeAudit

/-- What holds for all invocations of a scan. -/
structure RunOptions where
  timeout : Double := Double.ofInt 120
  /-- The files to look at, if not the whole target. -/
  files : List Path := []
  fix : Bool := false
  licenses : Bool := false
  deriving DecidableEq, Repr

namespace RunOptions

/-- Whether fixes that change what code means are asked for and allowed. -/
def effectiveFix (o : RunOptions) (config : ToolConfig) : Bool := o.fix && config.allowsFix

/-- What an analyzer is asked to do. -/
def request (o : RunOptions) (target : Path) (config : ToolConfig) (scratch : Option Path) :
    Request :=
  { target, config := config.path, files := o.files, fix := o.effectiveFix config
    licenses := o.licenses, scratch }

end RunOptions

namespace Host

/-- The eight characters that tell the scratch directories of one analyzer apart. -/
def scratchMark (n : Nat) : String :=
  let ds := Nat.toDigits 10 n
  String.ofList (List.replicate (8 - ds.length) '0' ++ ds)

/-- The names that a scratch directory may get, `first` being the number of the first. -/
def scratchNames (a : Analyzer) (first count : Nat) : List String :=
  (List.range count).map fun n => "fast-cv-" ++ a.name ++ "-" ++ scratchMark (first + n)

/-- An empty directory of a name that nothing else goes by. -/
def makeScratch (h : Host) (a : Analyzer) : Act Path := do
  let w ← get
  let count := match w.files.at? (h.place h.temporary) with
    | some (.directory entries) => entries.length
    | _ => 0
  let paths := (scratchNames a w.scratches.length (count + 1)).map h.temporary.child
  match paths.find? fun p => (w.files.at? (h.place p)).isNone with
  | none => throw (.system .alreadyExists (Text.quoted h.temporary.text))
  | some path =>
    let refused (e : SystemError) : Act Path := throw (.system e (Text.quoted path.text))
    match w.files.at? (h.place path).dropLast with
    | some (.directory _) =>
      if FileTree.maxName < path.name.utf8ByteSize || FileTree.tooLong path then refused .nameTooLong
      else
        set { w with
          files := w.files.set (some (.directory [])) (h.place path)
          scratches := w.scratches ++ [path] }
        return path
    | some (.closed _) => refused .permissionDenied
    | some _ => refused .notDirectory
    | none => refused .noEntry

/-- The files without a scratch directory, or why it cannot be removed. Something else may stand in
its place by then: what may not be read goes like a directory, a file and a link that leads to
something stay and are refused, and a link that leads nowhere stays unnoticed. -/
def withoutScratch (files : FileTree) (path : Path) (place : Place) : Except Fault FileTree :=
  let refused (e : SystemError) : Except Fault FileTree := .error (.system e (Text.quoted path.text))
  let there := files.standing place
  match files.at? there, files.find place with
  | some (.directory _), _ | some (.closed _), _ | some .unreadable, _ => .ok (files.set none there)
  | some (.link _), .ok .unreadable => .ok (files.set none there)
  | some (.file _ _), _ => refused .notDirectory
  | _, .error .noEntry => .ok files
  | _, .error e => refused e
  | _, .ok _ => .error (.raised "OSError" "Cannot call rmtree on a symbolic link")

def dropScratch (h : Host) (path : Path) : Act Unit := do
  let files ← Act.ofExcept (withoutScratch (← Act.files) path (h.place path))
  modify fun w => { w with files }

/-- The files in a scratch directory. What may not be read is left out. -/
def scratchFiles (h : Host) (path : Path) : Act (List (String × Text.Bytes)) := do
  let files ← Act.files
  let place := h.place path
  match files.find place with
  | .ok (.directory entries) =>
    return entries.filterMap fun (n, _) =>
      match files.find (place ++ [n]) with
      | .ok (.file content _) => some (n, content)
      | _ => none
  | _ => return []

/-- Faults of a start that are told together with the program that was to be started. -/
def isSpawnFault : Fault → Bool
  | .notOnPath _ => true
  | .system _ _ => true
  | .emptyCommand => true
  | .nullCharacter => true
  | .limitOverflow .notNumber => true
  | _ => false

/-- How a run of a command failed, apart from faults that have nothing to do with commands. -/
inductive Failure
  | overdue (limit : Double)
  | notStarted (executable : String) (cause : Fault)

def Failure.message : Failure → String
  | overdue limit => (Fault.timedOut limit).message
  | notStarted executable cause => "Failed to spawn " ++ executable ++ ": " ++ cause.message

/-- A command of an analyzer is run to its end, within a limit. -/
def spawn (h : Host) (c : Command) (limit : Double) : Act (Except Failure Completed) := do
  match ← Act.attempt (h.runGroup ⟨c.argv, c.workingDir, []⟩ limit killGrace) with
  | .ok completed => return .ok completed
  | .error (.timedOut limit) => return .error (.overdue limit)
  | .error f => if isSpawnFault f then return .error (.notStarted c.executable f) else throw f

/-- Commands are run one after the other, up to one that does not end in time. A command that
cannot be started is passed over. -/
def tidy (h : Host) (limit : Double) : List Command → Act (Option Failure)
  | [] => return none
  | c :: rest => do
    match ← h.spawn c limit with
    | .error (.overdue limit) => return some (.overdue limit)
    | _ => h.tidy limit rest

/-- What an analyzer found, or how its command failed. -/
def invoke (h : Host) (a : Analyzer) (r : Request) (o : RunOptions) :
    Act (Except Failure Reading) := do
  let overdue ← if o.fix then h.tidy o.timeout (← Act.ofExcept (a.preFix r)) else pure none
  match overdue with
  | some failure => return .error failure
  | none =>
    let command ← Act.ofExcept (a.build r)
    match ← h.spawn command o.timeout with
    | .error failure => return .error failure
    | .ok completed =>
      let files ← match r.scratch with
        | some path => h.scratchFiles path
        | none => pure []
      let output : Output :=
        { stdout := completed.stdout.getD "", stderr := completed.stderr.getD ""
          status := completed.status, licenses := r.licenses, files, wording := h.wording.json }
      return .ok (← Act.ofExcept (a.read output))

/-- An invocation with a scratch directory of its own, if the analyzer wants one, which is taken away
afterwards in any case, if it can be. -/
def invokeWithScratch (h : Host) (a : Analyzer) (config : ToolConfig) (target : Path)
    (o : RunOptions) : Act (Except Failure Reading) :=
  if a.usesScratch then do
    let path ← h.makeScratch a
    let answer ← Act.attempt (h.invoke a (o.request target config (some path)) o)
    h.dropScratch path
    Act.ofExcept answer
  else h.invoke a (o.request target config none) o

/-- What was read, as findings that keep the rules for them. -/
def settle (base : Outcome) : Reading → Outcome
  | .findings fs => { base with findings := fs }
  | .document v =>
    match Outcome.ofFields [("tool", .text base.tool), ("findings", v)] with
    | .ok o => { base with findings := o.findings }
    | .error issues =>
      { base with error := some ("invalid parser output: " ++
          ((issues.head?.map (·.problem.message)).getD "")) }

/-- An analyzer is run once, and whatever happens becomes its outcome. -/
def runTool (h : Host) (a : Analyzer) (config : ToolConfig) (target : Path) (o : RunOptions) :
    Act Outcome := do
  let base : Outcome :=
    { tool := a.name, duration := h.elapsed a.name
      fixSkipped := o.fix && a.supportsFix && !config.allowsFix }
  match ← Act.attempt (h.invokeWithScratch a config target o) with
  | .ok (.ok reading) => return settle base reading
  | .ok (.error failure) => return { base with error := some failure.message }
  | .error f => return { base with error := some f.summary }

end Host
end CodeAudit
