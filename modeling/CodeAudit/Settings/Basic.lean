import CodeAudit.Schema.Rule
namespace CodeAudit

inductive ReportFormat
  | markdown
  | sarif
  deriving DecidableEq, Repr

def ReportFormat.text : ReportFormat → String
  | markdown => "markdown"
  | sarif => "sarif"

/-- The options of a scan. -/
structure Settings where
  /-- Seconds each analyzer may take. -/
  timeout : Double := Double.ofInt 120
  /-- The analyzers to run, if not all that apply. -/
  tools : List String := []
  exclude : List String := []
  only : List String := []
  fix : Bool := false
  licenses : Bool := false
  autoInstall : Bool := false
  outputFormat : ReportFormat := .markdown
  /-- The longest file that is not reported; zero switches the check off. -/
  maxLines : Int := 600
  lineCheckOmit : List String := []
  jobs : Int := 1
  verbose : Bool := false
  deriving DecidableEq, Repr

namespace Settings
open Schema

variable {μ : Type}

/-- The entries of a text between commas, without white space at their ends and without blank
ones. -/
def entries (s : String) : List String :=
  ((Text.splitAt ',' s.toList).map fun piece => String.ofList (Text.trim piece)).filter (· ≠ "")

/-- A list of texts, or a text with commas. -/
def textsRule : Rule μ (List String)
  | .text s => .ok (entries s)
  | v => listOf text v

/-- Names in small letters, without white space at their ends and without blank ones. -/
def toolNames (names : List String) : List String :=
  (names.filter (!Text.blank ·)).map fun n => Text.lower (Text.strip n)

def toolsRule : Rule μ (List String) := fun v => (textsRule v).map toolNames

def formatRule : Rule μ ReportFormat :=
  oneOf true [(ReportFormat.markdown.text, .markdown), (ReportFormat.sarif.text, .sarif)]

def names : List String :=
  ["timeout", "tools", "exclude", "only", "fix", "licenses", "auto_install", "output_format",
   "max_lines", "line_check_omit", "jobs", "verbose"]

/-- Fields that no option goes by. -/
def unexpected (fields : Fields μ) : List Issue :=
  (fields.names.filter (!names.contains ·)).map fun n => ⟨[.field n], .unexpected⟩

def forbidUnexpected (fields : Fields μ) (s : Checked Settings) : Checked Settings :=
  match s, unexpected fields with
  | .ok s, [] => .ok s
  | .ok _, later => .error later
  | .error issues, later => .error (issues ++ later)

/-- The options that a record sets; the others keep their defaults. -/
def ofFields (fields : Fields μ) : Checked Settings :=
  let base : Settings := {}
  forbidUnexpected fields <| Checked.start Settings.mk
    |>.also (defaulted "timeout" base.timeout positive fields)
    |>.also (defaulted "tools" base.tools toolsRule fields)
    |>.also (defaulted "exclude" base.exclude textsRule fields)
    |>.also (defaulted "only" base.only textsRule fields)
    |>.also (defaulted "fix" base.fix truth fields)
    |>.also (defaulted "licenses" base.licenses truth fields)
    |>.also (defaulted "auto_install" base.autoInstall truth fields)
    |>.also (defaulted "output_format" base.outputFormat formatRule fields)
    |>.also (defaulted "max_lines" base.maxLines (integerFrom 0) fields)
    |>.also (defaulted "line_check_omit" base.lineCheckOmit textsRule fields)
    |>.also (defaulted "jobs" base.jobs (integerFrom 1) fields)
    |>.also (defaulted "verbose" base.verbose truth fields)

def ofData : Rule μ Settings := Schema.record "Config" ofFields

/-- One option set anew under the rule for it. -/
def assign (s : Settings) (name : String) (v : Data μ) : Checked Settings :=
  let set {α : Type} (rule : Rule μ α) (put : α → Settings) : Checked Settings :=
    ((rule v).under (.field name)).map put
  match name with
  | "timeout" => set positive fun x => { s with timeout := x }
  | "tools" => set toolsRule fun x => { s with tools := x }
  | "exclude" => set textsRule fun x => { s with exclude := x }
  | "only" => set textsRule fun x => { s with only := x }
  | "fix" => set truth fun x => { s with fix := x }
  | "licenses" => set truth fun x => { s with licenses := x }
  | "auto_install" => set truth fun x => { s with autoInstall := x }
  | "output_format" => set formatRule fun x => { s with outputFormat := x }
  | "max_lines" => set (integerFrom 0) fun x => { s with maxLines := x }
  | "line_check_omit" => set textsRule fun x => { s with lineCheckOmit := x }
  | "jobs" => set (integerFrom 1) fun x => { s with jobs := x }
  | "verbose" => set truth fun x => { s with verbose := x }
  | name => .error [⟨[.field name], .noSuchField name⟩]

end Settings
end CodeAudit
