import CodeAudit.Analyzer.Basic
namespace CodeAudit.Analyzer.Stylelint
open Output

/-- What the names of rules about layout have in them. -/
def layoutMarks : List String :=
  ["indentation", "whitespace", "empty-line", "no-eol", "no-missing-end-of-source-newline",
   "no-extra-semicolons"]

def classify (rule : Option String) : Tag :=
  if layoutMarks.any fun m => Text.contains m.toList (rule.getD "").toList then .format
  else .linter

def finding (file : String) (item : Fields Empty) : Except Fault (List Finding) := do
  let rule := phrase? (item.get "rule")
  let line ← line item ["line"]
  let col ← positive? (item.get "column")
  return [{
    file, line, col
    tag := (classify rule).text
    rule := rule.getD "unknown"
    severity := severityIf ((item.get "severity").isText "error")
    message := text item ["text"] "" }]

def fileFindings (item : Fields Empty) : Except Fault (List Finding) :=
  each (finding (text item ["source"] "unknown")) (item.get "warnings").records

/-- A fatal error, a wrong command line, or a wrong configuration. -/
def isFatal (status : Int) : Bool := status = 1 || status = 64 || status = 78

def read (o : Output) : Except Fault (List Finding) := do
  if o.silent then
    if isFatal o.status then
      fault ("stylelint error (exit " ++ integerText o.status ++ "): " ++ brief o.stderr)
    else return []
  else each fileFindings (← document "stylelint" o.stdout).records

def build (r : Request) : Command :=
  { executable := "stylelint"
    args := ["--formatter", "json", "--allow-empty-input"] ++ r.configArgs "--config" ++
      (if r.fix then ["--fix"] else []) ++
      if r.files.isEmpty then [r.target.text ++ "/**/*.\x7bcss,scss,sass,less\x7d"]
      else r.files.map Path.text }

end Stylelint

def stylelint : Analyzer where
  name := "stylelint"
  extensions := [".css", ".scss", ".sass", ".less"]
  installHint := "npm install -g stylelint stylelint-config-standard"
  supportsFix := true
  build r := .ok (Stylelint.build r)
  read := findings Stylelint.read

end CodeAudit.Analyzer
