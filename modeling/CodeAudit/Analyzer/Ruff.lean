import CodeAudit.Analyzer.Basic
namespace CodeAudit.Analyzer.Ruff
open Output

def startsWith (start : String) (cs : List Char) : Bool := start.toList.isPrefixOf cs

/-- A letter and then a digit. -/
def coded (letters : List Char) : List Char → Bool
  | a :: d :: _ => letters.contains a && Text.isDecimal d
  | _ => false

/-- The tag of a rule by its code. The families of refactorings come first, since one of them
begins like the security rules. -/
def classify (code : Option String) : Tag :=
  let cs := (code.getD "").toList
  if ["SIM", "UP", "PERF", "C4", "RET", "PIE"].any (startsWith · cs) then .refactor
  else if coded ['S'] cs then .security
  else if coded ['E', 'W', 'I'] cs then .format
  else if startsWith "B" cs then .bug
  else .linter

def finding (item : Fields Empty) : Except Fault (List Finding) := do
  let location := (item.get "location").fields
  let code := phrase? (item.get "code")
  let line ← line location ["row"]
  let col ← positive? (location.get "column")
  return [{
    file := text item ["filename"] "unknown"
    line, col
    tag := (classify code).text
    rule := code.getD "unknown"
    severity := severityIf ((item.get "type").isText "E")
    message := text item ["message"] "" }]

def read (o : Output) : Except Fault (List Finding) := do
  if o.silent then
    if o.status = 2 then fault ("ruff error: " ++ brief o.stderr) else return []
  else
    let payload ← document "ruff" o.stdout
    let diagnostics := match payload with
      | .record fields => Fields.get fields "diagnostics"
      | v => v
    each finding diagnostics.records

def configure (r : Request) (args : List String) : Command :=
  { executable := "ruff", args := args ++ r.configArgs "--config" ++ r.subjects }

def build (r : Request) : Command :=
  configure r ["check", "--output-format", "json", if r.fix then "--fix" else "--no-fix"]

end Ruff

def ruff : Analyzer where
  name := "ruff"
  extensions := [".py", ".pyi"]
  installHint := "pipx install ruff  (or: pip3 install --user ruff)"
  supportsFix := true
  preFix r := .ok [Ruff.configure r ["format"]]
  build r := .ok (Ruff.build r)
  read := findings Ruff.read

end CodeAudit.Analyzer
