import CodeAudit.Analyzer.Basic
namespace CodeAudit.Analyzer.Eslint
open Output

def securityRules : List String :=
  ["no-eval", "no-implied-eval", "no-new-func", "no-script-url", "no-proto", "no-caller",
   "no-extend-native"]

def refactorRules : List String :=
  ["complexity", "max-depth", "max-lines-per-function", "max-lines", "max-nested-callbacks",
   "max-params", "max-statements"]

def bugRules : List String :=
  ["no-unreachable", "no-unreachable-loop", "no-unused-vars", "no-constant-condition",
   "no-dupe-keys", "no-duplicate-case"]

/-- The rules of the sonarjs family that are about bugs. -/
def sonarBugRules : List String :=
  ["no-all-duplicated-branches", "no-element-overwrite", "no-empty-collection",
   "no-extra-arguments", "no-identical-conditions", "no-identical-expressions",
   "no-ignored-return", "no-one-iteration-loop", "no-use-of-empty-return-value",
   "non-existent-operator"].map ("sonarjs/" ++ ·)

def classify (rule : Option String) : Tag :=
  match rule with
  | none => .linter
  | some rule =>
    if sonarBugRules.contains rule then .bug
    else if "sonarjs/".toList.isPrefixOf rule.toList then .refactor
    else if securityRules.contains rule || "security/".toList.isPrefixOf rule.toList then .security
    else if refactorRules.contains rule then .refactor
    else if bugRules.contains rule then .bug
    else .linter

/-- What is said of files that no configuration covers. -/
def uncovered : List Char := "no matching configuration was supplied".toList

def finding (file : String) (item : Fields Empty) : Except Fault (List Finding) := do
  let rule := phrase? (item.get "ruleId")
  let message := text item ["message"] ""
  if rule.isNone && Text.contains uncovered message.toList then return []
  else
    let line ← line item ["line"]
    let col ← positive? (item.get "column")
    return [{
      file, line, col
      tag := (classify rule).text
      rule := rule.getD "parse-error"
      severity := severityIf ((item.get "severity").isInt 2)
      message }]

def fileFindings (item : Fields Empty) : Except Fault (List Finding) :=
  each (finding (text item ["filePath"] "unknown")) (item.get "messages").records

def read (o : Output) : Except Fault (List Finding) := do
  if o.silent then
    if o.status = 2 then fault ("eslint error: " ++ brief o.stderr) else return []
  else each fileFindings (← document "eslint" o.stdout).records

def build (r : Request) : Command :=
  { executable := "eslint"
    args := ["--format", "json"] ++ (if r.fix then ["--fix"] else []) ++ r.configArgs "--config" ++
      r.subjects
    workingDir := r.target }

end Eslint

def eslint : Analyzer where
  name := "eslint"
  extensions :=
    [".js", ".jsx", ".ts", ".tsx", ".mjs", ".cjs", ".mts", ".cts", ".svelte", ".vue", ".json",
     ".jsonc"]
  installHint := "npm install -g eslint eslint-plugin-security eslint-plugin-sonarjs"
  supportsFix := true
  build r := .ok (Eslint.build r)
  read := findings Eslint.read

end CodeAudit.Analyzer
