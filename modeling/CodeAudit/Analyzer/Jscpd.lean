import CodeAudit.Analyzer.Basic
import CodeAudit.Source
namespace CodeAudit.Analyzer.Jscpd
open Output

/-- The file that the report is written to. -/
def reportName : String := "jscpd-report.json"

/-- Where a clone starts: the line, zero if it is not known, and the column. -/
def start (side : Fields Empty) : Except Fault (Int × Option Int) := do
  let place := (side.get "startLoc").fields
  let line ← positive? (place.get "line")
  let line ← if line.isSome then pure line else positive? (side.get "start")
  let col ← positive? (place.get "column")
  return (line.getD 0, col)

def fileName (side : Fields Empty) : String := text side ["name"] "unknown"

/-- One side of a pair of clones, told with the place of the other. -/
def side (rule size : String) (here there : Fields Empty) : Except Fault Finding := do
  let (line, col) ← start here
  let (other, _) ← start there
  return {
    file := fileName here
    line, col
    tag := Tag.duplication.text
    rule
    message := "Duplicated block (" ++ size ++ "), also in " ++ fileName there ++ ":" ++
      if other = 0 then "?" else integerText other }

/-- A number as the report has it, or zero. -/
def count (item : Fields Empty) (name : String) : String :=
  (Data.orElse (item.get name) (.int 0)).display

/-- Both sides of a pair of clones. -/
def pair (item : Fields Empty) : Except Fault (List Finding) := do
  let first := (item.get "firstFile").fields
  let second := (item.get "secondFile").fields
  let rule := "jscpd/" ++ text item ["format"] "unknown"
  let size := count item "lines" ++ " lines, " ++ count item "tokens" ++ " tokens"
  return [← side rule size first second, ← side rule size second first]

def read (o : Output) : Except Fault (List Finding) := do
  match o.files.lookup reportName with
  | none =>
    if 1 < o.status then
      fault ("jscpd error (exit " ++ integerText o.status ++ "): " ++ brief o.stderr)
    else return []
  | some bytes =>
    match Text.decode bytes with
    | .error e => .error (.undecodable e)
    | .ok cs =>
      match Json.read (Text.unifyNewlines cs) with
      | .error e =>
        unreadable ("jscpd: failed to read report " ++ reportName ++ ": " ++
          o.wording (String.ofList (Text.unifyNewlines cs))) e
      | .ok v => each pair (Fields.get v.fields "duplicates").records

def build (r : Request) : Except Fault Command :=
  match r.scratch with
  | none => fault "jscpd requires a scratch directory for its report"
  | some scratch => .ok
    { executable := "jscpd"
      args := ["--reporters", "json", "--output", scratch.text, "--min-tokens", "50",
        "--min-lines", "5", "--absolute", "--silent"] ++ r.configArgs "--config" ++
        [r.target.text] }

end Jscpd

def jscpd : Analyzer where
  name := "jscpd"
  extensions := sourceExtensions
  installHint := "npm install -g jscpd"
  usesScratch := true
  build := Jscpd.build
  read := findings Jscpd.read

end CodeAudit.Analyzer
