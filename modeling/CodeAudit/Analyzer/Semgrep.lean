import CodeAudit.Analyzer.Basic
namespace CodeAudit.Analyzer.Semgrep
open Output

/-- The tag of a result by what is known of its rule. Without a category that is known it is about
security. -/
def classify (metadata : Fields Empty) : Except Fault Tag := do
  let category := Data.orElse (metadata.get "category") (.text "")
  if category.isText "security" then return .security
  else if ← isOneOf ["HIGH", "MEDIUM"] (Data.orElse (metadata.get "impact") (.text "")) then
    return .security
  else if category.isText "correctness" then return .bug
  else return .security

def finding (item : Fields Empty) : Except Fault (List Finding) := do
  let start := (item.get "start").fields
  let extra := (item.get "extra").fields
  let metadata := (Fields.get extra "metadata").fields
  let line ← line start ["line"]
  let col ← positive? (start.get "col")
  let tag ← classify metadata
  return [{
    file := text item ["path"] "unknown"
    line, col
    tag := tag.text
    rule := text item ["check_id"] "unknown"
    severity := severityIf ((extra.get "severity").isText "ERROR")
    message := ((text? extra ["message"]).or (text? metadata ["message"])).getD "Issue detected" }]

def read (o : Output) : Except Fault (List Finding) := do
  if o.silent then
    if 2 ≤ o.status then
      fault ("semgrep error (exit " ++ integerText o.status ++ "): " ++ brief o.stderr)
    else return []
  else each finding (Fields.get (← document "semgrep" o.stdout).fields "results").records

def build (r : Request) : Command :=
  { executable := "semgrep"
    args := ["scan", "--json", "--quiet", "--config", (r.config.map Path.text).getD "auto"] ++
      r.subjects }

end Semgrep

def semgrep : Analyzer where
  name := "semgrep"
  extensions := [".py", ".js", ".jsx", ".ts", ".tsx", ".go", ".java", ".rb"]
  installHint := "pipx install semgrep  (or: pip3 install --user semgrep)"
  build r := .ok (Semgrep.build r)
  read := findings Semgrep.read

end CodeAudit.Analyzer
