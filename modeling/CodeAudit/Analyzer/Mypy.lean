import CodeAudit.Analyzer.Basic
namespace CodeAudit.Analyzer.Mypy
open Output

/-- The finding of a record; notes belong to the error before them and are none of their own. -/
def finding (item : Fields Empty) : Except Fault (List Finding) := do
  if !(item.get "severity").isText "error" then return []
  else
    let line ← line item ["line"]
    let col ← positive? (item.get "column")
    return [{
      file := text item ["file"] "unknown"
      line, col
      tag := Tag.typeError.text
      rule := text item ["code"] "type-error"
      severity := .error
      message := text item ["message"] "" }]

def read (o : Output) : Except Fault (List Finding) := do
  if o.silent then
    if o.status = 2 && !Text.blank o.stderr then fault ("mypy error: " ++ brief o.stderr)
    else return []
  else each finding (← records o.stdout)

def build (r : Request) : Command :=
  { executable := "mypy"
    args := ["--output", "json", "--no-error-summary"] ++ r.configArgs "--config-file" ++
      r.subjects }

end Mypy

def mypy : Analyzer where
  name := "mypy"
  extensions := [".py", ".pyi"]
  installHint := "pipx install mypy  (or: pip3 install --user mypy)"
  build r := .ok (Mypy.build r)
  read := findings Mypy.read

end CodeAudit.Analyzer
