import CodeAudit.Command
import CodeAudit.Files.Resolve
import CodeAudit.Moment
import CodeAudit.Process.Group
import CodeAudit.Toml.Table
namespace CodeAudit

/-- What libraries say of what they refuse. -/
structure Wording where
  /-- Of a text that is no JSON document. -/
  json : String → String := fun _ => ""
  /-- Of a text that is no TOML document. -/
  toml : String → String := fun _ => ""
  /-- Of settings that break a rule. -/
  settings : Toml.Table → String := fun _ => ""
  /-- Of a pattern with a range from a later to an earlier character. -/
  range : String → String := fun _ => ""

/-- A start of a program. -/
structure Launch where
  program : Place
  args : List String
  workingDir : Place
  env : List (String × String)
  deriving DecidableEq, Repr

/-- What a started program does: its output, its changes to files, and how long its group lives. -/
structure Reaction where
  stdout : Text.Bytes := []
  stderr : Text.Bytes := []
  status : Int := 0
  group : Group := ⟨{}, []⟩
  files : FileTree

/-- What a program does when it is started among some files, or why it cannot be started. -/
abbrev Program := Launch → FileTree → Except SystemError Reaction

/-- What does not change while the program runs. -/
structure Host where
  programs : List (Place × Program) := []
  env : List (String × String) := []
  searchPath : List String := []
  home : Path
  /-- The home directories of users, by their names. -/
  homes : String → Option Path := fun _ => none
  workingDir : Path
  /-- Where scratch directories are made, a directory that no link leads to. -/
  temporary : Path
  /-- Where the defaults are that come with the program. -/
  bundled : Path
  /-- When reports are dated. -/
  date : Moment
  /-- The milliseconds that a run of an analyzer takes. -/
  elapsed : String → Double := fun _ => .zero
  wording : Wording := {}
  /-- The order in which so many invocations come to their end when they run together. -/
  finishing : Nat → List Nat := List.range

/-- What changes while the program runs. -/
structure World where
  files : FileTree
  /-- The programs started so far, the latest last. -/
  launches : List Launch := []
  /-- How often analyzers with answers of their own were asked. -/
  asked : List (Nat × Nat) := []
  /-- The scratch directories made so far. -/
  scratches : List Path := []
  /-- The processes that are left of groups that were ended. -/
  survivors : List Member := []

/-- A step that may change the world or fail; what it changed before it failed stays. -/
abbrev Act := ExceptT Fault (StateM World)

namespace Host

/-- The place of a path, seen from the working directory. -/
def place (h : Host) (p : Path) : Place := (h.workingDir.join p).names

end Host

namespace Act

def files : Act FileTree := do return (← get).files

def fail {α : Type} (f : Fault) : Act α := throw f

def ofExcept {α : Type} : Except Fault α → Act α
  | .ok a => pure a
  | .error f => throw f

/-- An answer or the fault in its place. -/
def attempt {α : Type} (act : Act α) : Act (Except Fault α) := fun w =>
  let (answer, w) := act w
  (.ok answer, w)

end Act
end CodeAudit
