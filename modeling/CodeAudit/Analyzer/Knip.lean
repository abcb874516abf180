import CodeAudit.Analyzer.Basic
namespace CodeAudit.Analyzer.Knip
open Output

/-- What is printed about a directory that is no package. -/
def noPackageMarks : List String := ["Unable to find", "no such file"]

def unusedFile (v : Json) : Finding :=
  { file := v.display
    tag := Tag.deadCode.text
    rule := "knip/unused-file"
    message := "Unused file: not imported or referenced by any other module" }

def unusedExport (item : Fields Empty) : Except Fault (List Finding) := do
  let line ← line item ["line", "row"]
  let col ← positive? (item.get "col")
  return [{
    file := text item ["file", "path"] "unknown"
    line, col
    tag := Tag.deadCode.text
    rule := "knip/unused-export"
    message := "Unused export: " ++ text item ["name", "symbol"] "unknown" }]

/-- The name of a dependency, which may stand alone or in a record. -/
def dependencyName : Json → String
  | .record fields => text fields ["name"] "unknown"
  | v => v.display

def dependency (rule label : String) (v : Json) : Finding :=
  { file := "package.json"
    tag := Tag.deadCode.text
    rule := rule
    message := label ++ ": " ++ dependencyName v }

def read (o : Output) : Except Fault (List Finding) := do
  if o.silent then
    if noPackageMarks.any fun m => Text.contains m.toList o.stderr.toList then return []
    else if 2 ≤ o.status && !Text.blank o.stderr then
      fault ("knip error (exit " ++ integerText o.status ++ "): " ++ brief o.stderr)
    else return []
  else
    let payload := (← document "knip" o.stdout).fields
    let files ← items (payload.get "files")
    let exports ← each unusedExport (payload.get "exports").records
    let unused ← items (payload.get "dependencies")
    let unlisted ← items (payload.get "unlisted")
    return files.map unusedFile ++ exports ++
      unused.map (dependency "knip/unused-dependency" "Unused dependency") ++
      unlisted.map (dependency "knip/unlisted-dependency" "Unlisted dependency")

def build (r : Request) : Command :=
  { executable := "npx"
    args := ["knip", "--reporter", "json", "--no-progress"]
    workingDir := r.target }

end Knip

def knip : Analyzer where
  name := "knip"
  extensions := [".js", ".jsx", ".ts", ".tsx", ".mjs", ".cjs"]
  installHint := "npx knip (runs via npx, no global install needed)"
  optIn := true
  executable := "npx"
  build r := .ok (Knip.build r)
  read := findings Knip.read

end CodeAudit.Analyzer
