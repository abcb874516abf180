import CodeAudit.Host
import CodeAudit.Settings.Basic
import CodeAudit.Toml.Document
namespace CodeAudit.Settings
open Toml

/-- A name with its hyphens made low lines. -/
def plainName (name : String) : String :=
  String.ofList (name.toList.map fun c => if c = '-' then '_' else c)

/-- Fields under their plain names; of two that get one name the later counts. -/
def plainNames (t : Table) : Table := Fields.putAll [] (t.map fun (n, v) => (plainName n, v))

/-- The table that a file is. -/
def readTable (wording : Wording) (files : FileTree) (place : Place) (path : Path) :
    Except Fault Table :=
  match files.read place with
  | .error e =>
    .error (.unreadableSettings path.text (Fault.system e (Text.quoted path.text)).message)
  | .ok bytes =>
    match Text.decode bytes with
    | .error e => .error (.undecodable e)
    | .ok cs =>
      match Toml.read cs with
      | .ok t => .ok t
      | .error .malformed => .error (.malformedSettings path.text (wording.toml (String.ofList cs)))
      | .error (.integerTooLong n) => .error (.numberTooLong n)

/-- The table that a file in a directory is, and an empty one where there is no such file. -/
def readTableIn (h : Host) (files : FileTree) (directory : Path) (name : String) :
    Except Fault Table := do
  let path := directory.child name
  if ← files.isFile path (h.place path) then readTable h.wording files (h.place path) path
  else return []

/-- The part of a project's table that is meant for this program. -/
def section? (project : Table) : Table :=
  (Fields.get (project.get "tool").fields "fast-cv").fields

/-- The settings in a directory: those of the project, then those of a file of their own, which
count more. -/
def inDirectory (h : Host) (files : FileTree) (directory : Path) : Except Fault Table := do
  let project ← readTableIn h files directory "pyproject.toml"
  let own ← readTableIn h files directory ".fast-cv.toml"
  return Fields.putAll (plainNames (section? project)) (plainNames own)

/-- What is asked for on top, which counts most; `null` asks for nothing. -/
def override (settings overrides : Table) : Table :=
  Fields.putAll settings ((plainNames overrides).filter fun (_, v) =>
    match v with
    | .null => false
    | _ => true)

/-- The settings that hold for a directory. -/
def load (h : Host) (files : FileTree) (directory : Path) (overrides : Table) :
    Except Fault Settings := do
  let found ← inDirectory h files directory
  let payload := override found overrides
  match ofFields payload with
  | .ok s => return s
  | .error issues => throw (.invalidSettings issues (h.wording.settings payload))

end CodeAudit.Settings
