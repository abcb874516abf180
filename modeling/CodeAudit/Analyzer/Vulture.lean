import CodeAudit.Analyzer.Basic
import CodeAudit.Analyzer.Diagnostic
namespace CodeAudit.Analyzer.Vulture
open Output Diagnostic

/-- A line of the report: file, line, message and confidence. -/
structure Report where
  file : List Char
  line : List Char
  message : List Char
  confidence : List Char
  deriving DecidableEq, Repr

/-- The confidence in brackets that ends a line. -/
def confidence? (cs : List Char) : Option (List Char) := do
  let cs ← afterBlank? cs
  let cs ← after? ['('] cs
  let (ds, cs) ← digits? cs
  let cs ← after? "% confidence)".toList cs
  if cs.all Text.isBlank then return ds else none

/-- A line number between colons, and the message and confidence after it. -/
def tail? (cs : List Char) : Option (List Char × List Char × List Char) := do
  let cs ← after? [':'] cs
  let (line, cs) ← digits? cs
  let cs ← after? [':'] cs
  let (message, confidence) ← blanksThen (longest confidence?) cs
  return (line, message, confidence)

def report? (cs : List Char) : Option Report :=
  (shortest tail? cs).map fun (file, line, message, confidence) =>
    ⟨file, line, message, confidence⟩

def finding (cs : List Char) : Except Fault (List Finding) := do
  match report? cs with
  | none => return []
  | some report =>
    return [{
      file := String.ofList report.file
      line := ← digits report.line
      tag := Tag.deadCode.text
      rule := "vulture/unused"
      message := String.ofList report.message ++ " (" ++ String.ofList report.confidence ++
        "% confidence)" }]

def read (o : Output) : Except Fault (List Finding) :=
  if o.status = 2 then fault ("vulture error (exit 2): " ++ brief o.stderr)
  else each finding (Text.splitLines (Text.trim o.stdout.toList))

def build (r : Request) : Command :=
  { executable := "vulture"
    args := ["--min-confidence", "80"] ++ r.subjects
    workingDir := r.target }

end Vulture

def vulture : Analyzer where
  name := "vulture"
  extensions := [".py", ".pyi"]
  installHint := "pipx install vulture  (or: pip3 install --user vulture)"
  build r := .ok (Vulture.build r)
  read := findings Vulture.read

end CodeAudit.Analyzer
