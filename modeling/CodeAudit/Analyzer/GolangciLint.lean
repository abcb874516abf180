import CodeAudit.Analyzer.Basic
namespace CodeAudit.Analyzer.GolangciLint
open Output

/-- The tag of an issue by the linter that found it. -/
def classify (linter : Option String) : Tag :=
  let name := linter.getD ""
  if ["gocognit", "cyclop", "funlen", "gocyclo", "maintidx", "nestif"].contains name then .refactor
  else if ["govet", "staticcheck", "ineffassign", "unused", "errcheck", "bodyclose",
      "nilerr"].contains name then .bug
  else if name = "gosec" then .security
  else if name = "revive" then .docs
  else .linter

def finding (item : Fields Empty) : Except Fault (List Finding) := do
  let position := (item.get "Pos").fields
  let linter := phrase? (item.get "FromLinter")
  let line ← line position ["Line"]
  let col ← positive? (position.get "Column")
  return [{
    file := text position ["Filename"] "unknown"
    line, col
    tag := (classify linter).text
    rule := linter.getD "unknown"
    severity := severityIf ((item.get "Severity").isText "error")
    message := text item ["Text"] "Issue detected" }]

def read (o : Output) : Except Fault (List Finding) := do
  if o.silent then
    if 1 < o.status then
      fault ("golangci-lint error (exit " ++ integerText o.status ++ "): " ++ brief o.stderr)
    else return []
  else each finding (Fields.get (← document "golangci-lint" o.stdout).fields "Issues").records

def build (r : Request) : Command :=
  { executable := "golangci-lint"
    args := ["run", "--out-format", "json"] ++
      (if r.config.isSome then r.configArgs "--config" else ["--enable", "gocognit"]) ++
      (if r.fix then ["--fix"] else []) ++
      if r.files.isEmpty then ["./..."] else r.files.map Path.text
    workingDir := r.target }

end GolangciLint

def golangciLint : Analyzer where
  name := "golangci-lint"
  extensions := [".go"]
  installHint :=
    "curl -sSfL https://raw.githubusercontent.com/golangci/golangci-lint/master/install.sh" ++
      " | sh -s -- -b ~/.local/bin"
  supportsFix := true
  build r := .ok (GolangciLint.build r)
  read := findings GolangciLint.read

end CodeAudit.Analyzer
