import CodeAudit.Analyzer.Basic
namespace CodeAudit.Analyzer.Typos
open Output

def finding (item : Fields Empty) : Except Fault (List Finding) := do
  match phrase? (item.get "typo") with
  | none => return []
  | some typo =>
    let corrections ← items (item.get "corrections")
    let line ← line item ["line_num"]
    let shown := ", ".intercalate (corrections.map Data.display)
    return [{
      file := text item ["path"] "unknown"
      line
      tag := Tag.typo.text
      rule := "typo"
      message := "\"" ++ typo ++ "\" -> " ++ if shown.isEmpty then "?" else shown }]

def read (o : Output) : Except Fault (List Finding) := do
  if o.silent then
    if 1 < o.status && !Text.blank o.stderr then fault ("typos error: " ++ brief o.stderr)
    else return []
  else each finding (← records o.stdout)

def build (r : Request) : Command :=
  { executable := "typos"
    args := ["--format", "json"] ++ r.configArgs "--config" ++ r.subjects
    workingDir := r.target }

end Typos

def typos : Analyzer where
  name := "typos"
  extensions :=
    [".py", ".pyi", ".js", ".jsx", ".ts", ".tsx", ".go", ".java", ".rb", ".php", ".rs", ".c",
     ".cpp", ".h", ".cs", ".swift", ".kt", ".kts", ".sql", ".mts", ".cts", ".scala", ".sh", ".bash"]
  installHint := "cargo install typos-cli  (or: brew install typos-cli)"
  optIn := true
  build r := .ok (Typos.build r)
  read := findings Typos.read

end CodeAudit.Analyzer
