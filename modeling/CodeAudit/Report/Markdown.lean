import CodeAudit.Data.Display
import CodeAudit.Fault
import CodeAudit.Report.Basic
import CodeAudit.Text.Order
namespace CodeAudit.Report.Markdown

/-- A count of things at hand, of which there are never too many for their number to be written. -/
def plural (count : Nat) (noun : String) : String :=
  Nat.repr count ++ " " ++ noun ++ if count = 1 then "" else "s"

/-- Milliseconds as seconds. -/
def seconds (duration : Double) : String := (duration.divNat 1000).tenths ++ "s"

def numeral (n : Int) : Except Fault String :=
  if integerFits n then .ok (integerText n) else .error .numberUnwritable

def place (f : Finding) : Except Fault String := do
  let line ← numeral f.line
  match f.col with
  | none => return "line " ++ line
  | some col => return "line " ++ line ++ ", col " ++ (← numeral col)

/-- The line for a finding. -/
def bullet (f : Finding) : Except Fault String := do
  return "- **[" ++ f.tag ++ "]** \x60" ++ f.rule ++ "\x60 " ++ f.message ++ " (" ++ (← place f) ++ ")"

def header (r : Report) : List String :=
  let timings := r.successes.map fun o => o.tool ++ " (" ++ seconds o.duration ++ ")"
  ["# " ++ project ++ " report",
   "",
   "**Target**: \x60" ++ r.target.text ++ "\x60",
   "**Date**: " ++ r.date.text] ++
    (if timings.isEmpty then [] else ["**Tools**: " ++ ", ".intercalate timings]) ++
    (if r.fix then ["**Mode**: fix"] else []) ++
    ["", "---", ""]

/-- The files of findings in order, each once. -/
def files (fs : List Finding) : List String :=
  (fs.map (·.file)).eraseDups.mergeSort fun a b => Text.atMost a.toList b.toList

/-- The findings of a file by line; those on one line stay in their order. -/
def inFile (fs : List Finding) (file : String) : List Finding :=
  (fs.filter (·.file == file)).mergeSort fun a b => a.line ≤ b.line

def fileSection (fs : List Finding) (file : String) : Except Fault (List String) := do
  return ["### \x60" ++ file ++ "\x60", ""] ++ (← (inFile fs file).mapM bullet) ++ [""]

def findingsSection (fs : List Finding) : Except Fault (List String) := do
  let sections ← (files fs).mapM (fileSection fs)
  return ["## Findings (" ++ plural fs.length "issue" ++ ")", ""] ++ sections.flatten

def warningsSection (warnings : List String) : List String :=
  ["---", "", "## Warnings", ""] ++ warnings.map ("- **[WARN]** " ++ ·) ++ [""]

def body (fs : List Finding) (warnings : List String) : Except Fault (List String) :=
  if fs.isEmpty && warnings.isEmpty then
    return ["## No issues found", "", "All checks passed.", ""]
  else do
    let found ← if fs.isEmpty then pure [] else findingsSection fs
    return found ++ if warnings.isEmpty then [] else warningsSection warnings

def footer (r : Report) : List String :=
  ["---",
   "",
   "*" ++ plural r.findings.length "finding" ++ " from " ++ plural r.successes.length "tool" ++
     " in " ++ seconds r.duration ++ "*",
   ""]

/-- The lines of a report, the last of which is empty. -/
def lines (r : Report) : Except Fault (List String) := do
  return header r ++ (← body (r.findings.map (·.2)) r.warnings) ++ footer r

def text (r : Report) : Except Fault String := do return "\n".intercalate (← lines r)

end CodeAudit.Report.Markdown
