import CodeAudit.Analyzer.Basic
namespace CodeAudit.Analyzer.Bearer
open Output

/-- A finding of an item at one of its locations. -/
def finding (item : Fields Empty) (severity : Severity) (location : Fields Empty) :
    Except Fault (List Finding) := do
  let start := (location.get "start").fields
  let line ← positive? (location.get "line_number")
  let line ← if line.isSome then pure line else number? start ["line"]
  let col ← positive? (location.get "column_number")
  let col ← if col.isSome then pure col else number? start ["column"]
  return [{
    file := ((text? location ["filename", "file"]).or (text? item ["filename"])).getD "unknown"
    line := line.getD 0
    col
    tag := Tag.privacy.text
    rule := text item ["rule_id", "id"] "unknown"
    severity
    message := text item ["title", "description", "message"] "Privacy/data-flow issue detected" }]

/-- The findings of an item, one for each of its locations; an item without any is its own. -/
def itemFindings (item : Fields Empty) : Except Fault (List Finding) := do
  let locations := (item.get "locations").records
  let grave ← isOneOf ["critical", "high"] (item.get "severity")
  each (finding item (severityIf grave)) (if locations.isEmpty then [item] else locations)

def read (o : Output) : Except Fault (List Finding) := do
  if o.silent then
    if 2 ≤ o.status then
      fault ("bearer error (exit " ++ integerText o.status ++ "): " ++ brief o.stderr)
    else return []
  else
    let payload := (← document "bearer" o.stdout).fields
    each itemFindings (Data.orElse (payload.get "warnings") (payload.get "findings")).records

def build (r : Request) : Command :=
  { executable := "bearer"
    args := ["scan", "--format", "json", "--quiet"] ++ r.configArgs "--config-file" ++
      [r.target.text] }

end Bearer

def bearer : Analyzer where
  name := "bearer"
  extensions := [".py", ".js", ".jsx", ".ts", ".tsx", ".go", ".java", ".rb", ".php"]
  installHint :=
    "curl -sfL https://raw.githubusercontent.com/Bearer/bearer/main/contrib/install.sh" ++
      " | sh -s -- -b ~/.local/bin"
  versionArgs := ["version"]
  build r := .ok (Bearer.build r)
  read := findings Bearer.read

end CodeAudit.Analyzer
