import CodeAudit.Analyzer.Basic
namespace CodeAudit.Analyzer.Sqlfluff
open Output

def startsWith (start code : String) : Bool := start.toList.isPrefixOf code.toList

/-- The tag of a violation: parse errors are bugs, layout and capitals are about format. -/
def classify (code : Option String) : Tag :=
  let code := code.getD ""
  if startsWith "PRS" code then .bug
  else if startsWith "LT" code || startsWith "CP" code then .format
  else .linter

def finding (file : String) (item : Fields Empty) : Except Fault (List Finding) := do
  let code := phrase? (item.get "code")
  let line ← line item ["start_line_no", "line_no"]
  let col ← number? item ["start_line_pos", "line_pos"]
  return [{
    file, line, col
    tag := (classify code).text
    rule := code.getD "unknown"
    severity := severityIf (startsWith "PRS" (code.getD ""))
    message := text item ["description", "name"] "SQL lint issue" }]

def fileFindings (item : Fields Empty) : Except Fault (List Finding) :=
  each (finding (text item ["filepath", "file"] "unknown")) (item.get "violations").records

def read (o : Output) : Except Fault (List Finding) := do
  if o.silent then
    if 3 ≤ o.status then
      fault ("sqlfluff error (exit " ++ integerText o.status ++ "): " ++ brief o.stderr)
    else return []
  else each fileFindings (← document "sqlfluff" o.stdout).records

def build (r : Request) : Command :=
  { executable := "sqlfluff"
    args := [if r.fix then "fix" else "lint", "--format", "json", "--disable-progress-bar",
      "--processes", "1"] ++ (if r.fix then ["--force"] else []) ++ r.subjects }

end Sqlfluff

def sqlfluff : Analyzer where
  name := "sqlfluff"
  extensions := [".sql"]
  installHint := "pipx install sqlfluff  (or: pip3 install --user sqlfluff)"
  versionArgs := ["version"]
  supportsFix := true
  build r := .ok (Sqlfluff.build r)
  read := findings Sqlfluff.read

end CodeAudit.Analyzer
