import CodeAudit.CommandLine.Arguments
import CodeAudit.CommandLine.Status
import CodeAudit.Scan.Pipeline
namespace CodeAudit

/-- How a call of the program ends and what it prints. -/
structure Answer where
  code : Nat
  stdout : String := ""
  stderr : String := ""
  deriving DecidableEq, Repr

namespace ScanArguments

/-- What the arguments set on top of the settings of a directory. -/
def overrides (a : ScanArguments) : Toml.Table :=
  [("timeout", (a.timeout.map .float).getD .null),
   ("tools", (a.tools.map .text).getD .null),
   ("exclude", (a.exclude.map .text).getD .null),
   ("only", (a.only.map .text).getD .null),
   ("fix", (a.fix.map .bool).getD .null),
   ("licenses", (a.licenses.map .bool).getD .null),
   ("auto_install", (a.autoInstall.map .bool).getD .null),
   ("output_format", (a.outputFormat.map .text).getD .null),
   ("max_lines", (a.maxLines.map .int).getD .null),
   ("jobs", (a.jobs.map .int).getD .null),
   ("verbose", if a.verbose then .bool true else .null)]

end ScanArguments

namespace Host

/-- The faults that a user is told of in a line; all others end the program as they are. -/
def isUserFault : Fault → Bool
  | .unscannable _ => true
  | .malformedSettings _ _ => true
  | .unreadableSettings _ _ => true
  | .invalidSettings _ _ => true
  | .unknownTools _ _ => true
  | _ => false

/-- The lines that go with a report if diagnostics are wanted. -/
def closing (emoji : Bool) (r : ScanResult) : String :=
  String.join (r.warnings.map (statusLine .warn emoji)) ++
    if r.status = .clean then statusLine .ok emoji "No issues found."
    else statusLine .info emoji (Nat.repr r.findingCount ++ " finding(s) reported.")

/-- A path as it is told at the start of a scan. -/
def shownPath (h : Host) (files : FileTree) (p : Path) : String :=
  match files.settle (h.place p) with
  | .ok place => (Path.mk .root place).text
  | .error _ => (Path.mk .root (Path.settled (h.place p))).text

/-- Whether a path leads through links in a circle, and does so too when its parent steps are undone
first. -/
def circles (h : Host) (files : FileTree) (p : Path) : Bool :=
  files.settle (h.place p) matches .error .tooManyLinks &&
    files.find (Path.settled (h.place p)) matches .error .tooManyLinks

/-- The settings of a scan and what it comes to. A path in circles cannot be told at its start. -/
def scanWith (h : Host) (a : ScanArguments) : Act (Settings × ScanResult) := do
  let directory := Path.ofText a.directory
  let files ← Act.files
  let settings ← Act.ofExcept (Settings.load h files directory a.overrides)
  if settings.verbose && h.circles files directory then
    Act.fail (.system .tooManyLinks (Text.quoted directory.text))
  return (settings, ← h.runScan .builtin settings directory none none)

def missingTools : String := "Required tools are not installed."

/-- The answer to a call for a scan. -/
def scanCommand (h : Host) (a : ScanArguments) : Act Answer := do
  let files ← Act.files
  match ← Act.attempt (h.scanWith a) with
  | .error f =>
    if isUserFault f then
      return { code := 2, stderr := statusLine .fail a.emoji f.message }
    else return { code := 1, stderr := f.message ++ "\n" }
  | .ok (settings, r) =>
    if r.status = .precheckFailed then
      return { code := r.status.code
               stderr := statusLine .fail a.emoji missingTools ++
                 (r.message.map (· ++ "\n")).getD "" }
    else
      let opening := statusLine .info a.emoji
        ("Scanning " ++ h.shownPath files (Path.ofText a.directory))
      return { code := r.status.code, stdout := r.report
               stderr := if settings.verbose then opening ++ closing a.emoji r else "" }

def usage : String :=
  "Usage: fast-cv [--version] [--help] scan [OPTIONS] [DIRECTORY] | tools\n"

/-- The answer to a command line. -/
def answer (h : Host) (ws : List String) : Act Answer :=
  match Task.ofWords ws with
  | .version => return { code := 0, stdout := Report.project ++ " " ++ Report.version ++ "\n" }
  | .help => return { code := 0, stdout := usage }
  | .listing =>
    let lines := (Listing.rows .builtin).map fun r => "  ".intercalate r ++ "\n"
    return { code := 0, stdout := String.join lines }
  | .misuse => return { code := 2, stderr := usage }
  | .scan a => h.scanCommand a

end Host
end CodeAudit
