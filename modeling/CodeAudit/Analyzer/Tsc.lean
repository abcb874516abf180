import CodeAudit.Analyzer.Basic
import CodeAudit.Analyzer.Diagnostic
namespace CodeAudit.Analyzer.Tsc
open Output Diagnostic

/-- A diagnostic: where it stands, how grave it is, its code and its message. -/
structure Report where
  file : List Char
  line : List Char
  col : List Char
  severity : Severity
  code : List Char
  message : List Char
  deriving DecidableEq, Repr

def severity? (cs : List Char) : Option (Severity × List Char) :=
  match after? "error".toList cs with
  | some rest => some (.error, rest)
  | none => (after? "warning".toList cs).map fun rest => (.warning, rest)

/-- Line and column in brackets, and what follows them. -/
def position? (cs : List Char) : Option (List Char × List Char × List Char) := do
  let (line, cs) ← digits? (← after? ['('] cs)
  let (col, cs) ← digits? (← after? [','] cs)
  let cs ← after? [')', ':'] cs
  return (line, col, cs)

/-- What stands after the file of a diagnostic. -/
def tail? (cs : List Char) : Option (List Char → Report) := do
  let (line, col, cs) ← position? cs
  let (severity, cs) ← severity? (← afterBlank? cs)
  let cs ← after? ['T', 'S'] (← afterBlank? cs)
  let (number, cs) ← digits? cs
  let cs ← after? [':'] cs
  let message ← blanksThen (fun rest => if rest.isEmpty then none else some rest) cs
  return fun file => ⟨file, line, col, severity, 'T' :: 'S' :: number, message⟩

def report? (cs : List Char) : Option Report :=
  (shortest tail? cs).map fun (file, report) => report file

def finding (cs : List Char) : Except Fault (List Finding) := do
  match report? (Text.trim cs) with
  | none => return []
  | some report =>
    let line ← digits report.line
    let col ← digits report.col
    return [{
      file := String.ofList report.file
      line
      col := above col
      tag := Tag.typeError.text
      rule := String.ofList report.code
      severity := report.severity
      message := String.ofList report.message }]

def read (o : Output) : Except Fault (List Finding) :=
  if 3 ≤ o.status then
    fault ("tsc error (exit " ++ integerText o.status ++ "): " ++
      brief (if o.stderr.isEmpty then o.stdout else o.stderr))
  else each finding (Text.splitLines o.stdout.toList)

def build (r : Request) : Command :=
  { executable := "tsc"
    args := ["--noEmit", "--pretty", "false", "--project", (r.config.getD r.target).text] }

end Tsc

def tsc : Analyzer where
  name := "tsc"
  extensions := [".ts", ".tsx", ".mts", ".cts"]
  installHint := "npm install -g typescript"
  build r := .ok (Tsc.build r)
  read := findings Tsc.read

end CodeAudit.Analyzer
