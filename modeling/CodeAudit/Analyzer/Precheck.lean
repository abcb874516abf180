import CodeAudit.Analyzer.Install
import CodeAudit.Process.Run
namespace CodeAudit

/-- Which of some analyzers can run. -/
structure Precheck where
  /-- False only if some are missing and were not to be installed. -/
  ok : Bool
  ready : List Analyzer
  missing : List Analyzer := []
  /-- One line for each attempt to install. -/
  warnings : List String := []
  message : Option String := none

namespace Host

def probeLimit : Limit := .ofDouble (Double.ofInt 30)

def installLimit : Limit := .ofDouble (Double.ofInt 300)

/-- The next of the answers known beforehand; the last holds from then on. -/
def nextAnswer (key : Nat) (answers : List (Except Fault Bool)) : Act (Except Fault Bool) := do
  let asked := ((← get).asked.lookup key).getD 0
  modify fun w => { w with asked := (key, asked + 1) :: w.asked.filter (·.1 != key) }
  return (answers[asked]?).getD (answers.getLast?.getD (.ok true))

/-- Whether an analyzer is there, or why that cannot be said. -/
def isInstalled (h : Host) (a : Analyzer) : Act Bool :=
  match a.presence with
  | .told key answers => do Act.ofExcept (← nextAnswer key answers)
  | .asked => do
    let (_, completed) ← h.runCommand ⟨a.binary :: a.versionArgs, none, []⟩ true (some probeLimit)
    return completed.status == 0

/-- An analyzer of which nothing can be said counts as missing. -/
def probe (h : Host) (a : Analyzer) : Act Bool := do
  match ← Act.attempt (h.isInstalled a) with
  | .ok answer => return answer
  | .error _ => return false

/-- Each analyzer with whether it is there. -/
def probeAll (h : Host) : List Analyzer → Act (List (Analyzer × Bool))
  | [] => return []
  | a :: rest => do
    let answer ← h.probe a
    return (a, answer) :: (← h.probeAll rest)

/-- The failures of an installation that leave the analyzer missing and nothing else. -/
def isInstallFailure : Fault → Bool
  | .notOnPath _ => true
  | .system _ _ => true
  | .commandFailed _ _ _ => true
  | _ => false

/-- An attempt to install an analyzer; afterwards it is looked for again. -/
def install (h : Host) (a : Analyzer) : Act Bool :=
  match Install.argv a.installHint with
  | .error _ => return false
  | .ok [] => return false
  | .ok argv => do
    match ← Act.attempt (h.runChecked ⟨argv, none, []⟩ true (some installLimit)) with
    | .ok _ => h.probe a
    | .error f => if isInstallFailure f then return false else throw f

/-- Each analyzer with whether the attempt to install it was a success. -/
def installAll (h : Host) : List Analyzer → Act (List (Analyzer × Bool))
  | [] => return []
  | a :: rest => do
    let installed ← h.install a
    return (a, installed) :: (← h.installAll rest)

def installWarning : Analyzer × Bool → String
  | (a, true) => a.name ++ ": auto-installed successfully"
  | (a, false) => a.name ++ ": auto-install failed, install manually: " ++ a.installHint

/-- Where the last analyzer of a name stands among some. -/
def rank (as : List Analyzer) (a : Analyzer) : Nat :=
  as.length - as.reverse.findIdx (·.name == a.name)

/-- Some of the analyzers, in the order of all. -/
def inOrderOf (all as : List Analyzer) : List Analyzer :=
  as.mergeSort fun a b => rank all a ≤ rank all b

/-- Which of the analyzers can run, after attempts to install the others if that is asked for. -/
def precheck (h : Host) (analyzers : List Analyzer) (autoInstall : Bool) : Act Precheck := do
  let probed ← h.probeAll analyzers
  let ready := (probed.filter (·.2)).map (·.1)
  let missing := (probed.filter (!·.2)).map (·.1)
  if missing.isEmpty then return { ok := true, ready }
  else if !autoInstall then
    return { ok := false, ready, missing, message := some (Install.message missing) }
  else
    let attempts ← h.installAll missing
    let installed := (attempts.filter (·.2)).map (·.1)
    return {
      ok := true
      ready := inOrderOf analyzers (ready ++ installed)
      missing := (attempts.filter (!·.2)).map (·.1)
      warnings := attempts.map installWarning }

end Host
end CodeAudit
