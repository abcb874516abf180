import CodeAudit.Analyzer.Output
import CodeAudit.Command
namespace CodeAudit

/-- What an analyzer is asked to look at, and how. -/
structure Request where
  target : Path
  config : Option Path := none
  /-- The files to look at, if not the whole target. -/
  files : List Path := []
  fix : Bool := false
  licenses : Bool := false
  scratch : Option Path := none
  deriving DecidableEq, Repr

namespace Request

/-- The files asked for, or the whole target. -/
def subjects (r : Request) : List String :=
  if r.files.isEmpty then [r.target.text] else r.files.map Path.text

/-- An option with the configuration, if there is one. -/
def configArgs (r : Request) (option : String) : List String :=
  match r.config with
  | some p => [option, p.text]
  | none => []

end Request

/-- What an analyzer's output is read as: findings, or a document that has to be checked. -/
inductive Reading
  | findings (fs : List Finding)
  | document (v : Json)

/-- How to find out whether an analyzer is there. -/
inductive Presence
  /-- By starting it for its version. -/
  | asked
  /-- By answers known beforehand, the last of which holds from then on. `key` tells the analyzers
  of a session apart. -/
  | told (key : Nat) (answers : List (Except Fault Bool))

/-- A program that looks at code, and how to use it. -/
structure Analyzer where
  name : String
  /-- The endings of the files it looks at. -/
  extensions : List String
  installHint : String
  /-- It runs only when it is asked for by name. -/
  optIn : Bool := false
  supportsFix : Bool := false
  usesScratch : Bool := false
  executable : Option String := none
  versionArgs : List String := ["--version"]
  presence : Presence := .asked
  /-- The commands that tidy up before a run with fixes. -/
  preFix : Request → Except Fault (List Command) := fun _ => .ok []
  build : Request → Except Fault Command
  read : Output → Except Fault Reading

namespace Analyzer

/-- The program that is started to see whether the analyzer is there. -/
def binary (a : Analyzer) : String := a.executable.getD a.name

def isRelevant (a : Analyzer) (extensions : List String) : Bool :=
  a.extensions.any extensions.contains

/-- An analyzer whose output is read as findings. -/
def findings (read : Output → Except Fault (List Finding)) (o : Output) : Except Fault Reading :=
  (read o).map .findings

end Analyzer
end CodeAudit
