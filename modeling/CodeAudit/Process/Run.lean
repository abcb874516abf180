import CodeAudit.Host
import CodeAudit.Text.Lines
namespace CodeAudit

/-- A time limit in seconds, and how messages write it. -/
structure Limit where
  seconds : Double
  text : String
  deriving DecidableEq, Repr

def Limit.ofDouble (x : Double) : Limit := ⟨x, x.text⟩

def Limit.ofInt (n : Int) : Limit := ⟨Double.ofInt n, integerText n⟩

/-- How a program ended and what it printed, if that was collected. -/
structure Completed where
  status : Int
  stdout : Option String
  stderr : Option String
  deriving DecidableEq, Repr

namespace Host

/-- Whether a place leads to a file that may be started. -/
def isProgram (files : FileTree) (place : Place) : Bool :=
  match files.find place with
  | .ok (.file _ executable) => executable
  | _ => false

/-- The path of an executable: its own, if it names a directory, or one in the search path. -/
def locate? (h : Host) (files : FileTree) (executable : String) : Option String :=
  if executable.toList.head? = some '/' then some executable
  else
    let found (path : String) : Bool := isProgram files (h.place (Path.ofText path))
    if executable.toList.contains '/' then if found executable then some executable else none
    else (h.searchPath.map (· ++ "/" ++ executable)).find? found

def locate (h : Host) (files : FileTree) (executable : String) : Except Fault String :=
  match h.locate? files executable with
  | some path => .ok path
  | none => .error (.notOnPath executable)

/-- The directory to start a program in. -/
def startDirectory (h : Host) (files : FileTree) (cwd : Option Path) : Except Fault Place :=
  match cwd with
  | none => .ok h.workingDir.names
  | some p =>
    let refused (e : SystemError) : Fault := .system e ("PosixPath(" ++ Text.quoted p.text ++ ")")
    match files.resolve (h.place p) with
    | .error e => .error (refused e)
    | .ok place =>
      match files.at? place with
      | some (.directory _) => .ok place
      | some (.closed _) => .error (refused .permissionDenied)
      | _ => .error (refused .notDirectory)

/-- The place of a program, seen from the directory it is started in. -/
def programPlace (files : FileTree) (directory : Place) (path : String) :
    Except SystemError Place := do
  let p := Path.ofText path
  let place ← files.resolve (if p.isAbsolute then p.names else directory ++ p.names)
  if isProgram files place then return place else throw .permissionDenied

/-- The variables that a started program sees: none of its output is to be coloured. -/
def environment (h : Host) (overrides : List (String × String)) : List (String × String) :=
  let put (env : List (String × String)) (v : String × String) :=
    env.filter (·.1 != v.1) ++ [v]
  (("NO_COLOR", "1") :: overrides).foldl put h.env

/-- Where and how a command is started. -/
structure Start where
  argv : List String
  cwd : Option Path := none
  env : List (String × String) := []

/-- The launch that a command asks for, or why there is none, with the path of its executable. -/
def prepare (h : Host) (files : FileTree) (s : Start) : Except Fault (String × Launch) := do
  match s.argv with
  | [] => throw .emptyCommand
  | executable :: args =>
    let path ← h.locate files executable
    if (path :: args).any fun a => a.toList.contains '\x00' then throw .nullCharacter
    let directory ← h.startDirectory files s.cwd
    match programPlace files directory path with
    | .error e => throw (.system e (Text.quoted path))
    | .ok place => return (path, ⟨place, args, directory, h.environment s.env⟩)

/-- What a launch leads to. -/
def react (h : Host) (files : FileTree) (path : String) (l : Launch) : Except Fault Reaction :=
  match h.programs.lookup l.program with
  | none => .error (.system .badFormat (Text.quoted path))
  | some program =>
    match program l files with
    | .error e => .error (.system e (Text.quoted path))
    | .ok r => .ok r

/-- A program is started: the launch is on record, and what the program does to files is done. -/
def start (h : Host) (s : Start) : Act (String × Reaction) := do
  let files ← Act.files
  let (path, launch) ← Act.ofExcept (h.prepare files s)
  let reaction ← Act.ofExcept (h.react files path launch)
  modify fun w => { w with launches := w.launches ++ [launch], files := reaction.files }
  return (path, reaction)

/-- The longest time that can be waited for, in milliseconds. -/
def maxWait : Nat := 2147483647

/-- The longest time that the clock can count, in milliseconds. -/
def maxClock : Nat := 9223372036854

/-- Limits are waited for in whole milliseconds, of which there may not be too many. -/
def checkLimit (limit : Double) : Except Fault Unit :=
  let beyond (milliseconds : Nat) : Bool := (Double.ofRatio false milliseconds 1000).lt limit
  match limit with
  | .nan => .error (.limitOverflow .notNumber)
  | .infinite false => .error (.limitOverflow .infinite)
  | _ =>
    if beyond maxClock then .error (.limitOverflow .beyondClock)
    else if beyond maxWait then .error (.limitOverflow .beyondWait)
    else .ok ()

/-- A limit that is not positive has passed before anything is looked at. -/
def inTime (r : Reaction) (limit : Double) : Bool :=
  Double.zero.lt limit && r.group.finishedBy limit

/-- Output as text, with each fault replaced and line ends made one. -/
def lossyText (bytes : Text.Bytes) : String :=
  String.ofList (Text.unifyNewlines (Text.decodeLossy bytes))

/-- Output as text with line ends made one; it has to be UTF-8. -/
def strictText (bytes : Text.Bytes) : Except Fault String :=
  match Text.decode bytes with
  | .ok cs => .ok (String.ofList (Text.unifyNewlines cs))
  | .error e => .error (.undecodable e)

/-- The status that stands for a time limit that has passed. -/
def timeoutStatus : Int := 124

/-- What is known of a command that did not end in time: what it printed until then, and a note. -/
def overdue (r : Reaction) (capture : Bool) (limit : Limit) : Completed :=
  let shown (bytes : Text.Bytes) : String :=
    if capture && Double.zero.lt limit.seconds then String.ofList (Text.decodeLossy bytes) else ""
  let stderr := shown r.stderr
  let note := "Command timed out after " ++ limit.text ++ "s"
  ⟨timeoutStatus, some (shown r.stdout),
    some (if stderr.isEmpty then note else stderr ++ "\n" ++ note)⟩

/-- What is known of a command that ended. -/
def collected (r : Reaction) (capture : Bool) : Except Fault Completed :=
  if capture then do
    let stdout ← strictText r.stdout
    let stderr ← strictText r.stderr
    return ⟨r.status, some stdout, some stderr⟩
  else .ok ⟨r.status, none, none⟩

/-- A short command is run to its end or to a limit; a limit that has passed counts as an end with
a status of its own. -/
def runCommand (h : Host) (s : Start) (capture : Bool) (limit : Option Limit) :
    Act (String × Completed) := do
  let (path, reaction) ← h.start s
  match limit with
  | none => return (path, ← Act.ofExcept (collected reaction capture))
  | some limit =>
    Act.ofExcept (checkLimit limit.seconds)
    if inTime reaction limit.seconds then
      return (path, ← Act.ofExcept (collected reaction capture))
    else
      modify fun w => { w with
        survivors := w.survivors ++ Group.aliveAt reaction.group.workers limit.seconds }
      return (path, overdue reaction capture limit)

/-- As `runCommand`, but any status other than zero is a failure. -/
def runChecked (h : Host) (s : Start) (capture : Bool) (limit : Option Limit) : Act Completed := do
  let (path, completed) ← h.runCommand s capture limit
  if completed.status = 0 then return completed
  else throw (.commandFailed path completed.status (completed.stderr.getD ""))

/-- Whether a delay can be waited for: as for a limit, which matters only while the pipes are open. -/
def checkDelay (g : Group) (time grace : Double) : Except Fault Unit :=
  if g.holdsPipesAt time then checkLimit grace else .ok ()

/-- The members that are left of a group that did not end in time. -/
def leftOf (g : Group) (time grace : Double) : List Member :=
  match checkDelay g time grace with
  | .ok () => g.terminate time grace
  | .error _ => g.deafAt time

/-- A group that did not end by a limit is asked to end, and made to end if it is still waited for
after a delay. -/
def endGroup (g : Group) (limit grace : Double) : Act Unit := do
  let time := Group.passing limit
  modify fun w => { w with survivors := w.survivors ++ leftOf g time grace }
  Act.ofExcept (checkDelay g time grace)

/-- An analyzer is run to its end; if a limit passes before, its whole group is ended and what it
printed is dropped. -/
def runGroup (h : Host) (s : Start) (limit grace : Double) : Act Completed := do
  let (_, reaction) ← h.start s
  Act.ofExcept (checkLimit limit)
  if inTime reaction limit then
    return ⟨reaction.status, some (lossyText reaction.stdout), some (lossyText reaction.stderr)⟩
  else
    endGroup reaction.group limit grace
    throw (.timedOut limit)

/-- The seconds between asking a group to end and making it end. -/
def killGrace : Double := Double.ofInt 5

end Host
end CodeAudit
