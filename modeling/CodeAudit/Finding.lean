import CodeAudit.Schema.Rule
import CodeAudit.Text.Blank
namespace CodeAudit

/-- What kind of issue a finding is about. -/
inductive Tag
  | security
  | bug
  | refactor
  | linter
  | format
  | typeError
  | dependency
  | infra
  | secret
  | privacy
  | license
  | docs
  | typo
  | deadCode
  | duplication
  deriving DecidableEq, Repr

namespace Tag

def text : Tag → String
  | security => "SECURITY"
  | bug => "BUG"
  | refactor => "REFACTOR"
  | linter => "LINTER"
  | format => "FORMAT"
  | typeError => "TYPE_ERROR"
  | dependency => "DEPENDENCY"
  | infra => "INFRA"
  | secret => "SECRET"
  | privacy => "PRIVACY"
  | license => "LICENSE"
  | docs => "DOCS"
  | typo => "TYPO"
  | deadCode => "DEAD_CODE"
  | duplication => "DUPLICATION"

def all : List Tag :=
  [security, bug, refactor, linter, format, typeError, dependency, infra, secret, privacy, license,
   docs, typo, deadCode, duplication]

def ofText? (s : String) : Option Tag := all.find? (·.text == s)

end Tag

inductive Severity
  | error
  | warning
  deriving DecidableEq, Repr

def Severity.text : Severity → String
  | error => "error"
  | warning => "warning"

/-- An issue that an analyzer reports. Line zero stands for the file as a whole. -/
structure Finding where
  file : String
  line : Int := 0
  col : Option Int := none
  tag : String := Tag.linter.text
  rule : String
  severity : Severity := .warning
  message : String
  deriving DecidableEq, Repr

namespace Finding
open Schema

/-- A tag as text, without white space at its ends and in capitals. -/
def tagRule : Rule Empty String := fun v => (text v).map fun s => Text.upper (Text.strip s)

/-- A line, which may be given as `null` where there is none. -/
def lineRule : Rule Empty Int
  | .null => .ok 0
  | v => integer v

def severityRule : Rule Empty Severity :=
  oneOf false [(Severity.error.text, .error), (Severity.warning.text, .warning)]

def ofFields (fields : Fields Empty) : Checked Finding :=
  Checked.start Finding.mk
    |>.also (required "file" text fields)
    |>.also (defaulted "line" 0 lineRule fields)
    |>.also (defaulted "col" none (nullable integer) fields)
    |>.also (defaulted "tag" Tag.linter.text tagRule fields)
    |>.also (required "rule" text fields)
    |>.also (defaulted "severity" .warning severityRule fields)
    |>.also (required "message" text fields)

def ofData : Rule Empty Finding := Schema.record "Finding" ofFields

end Finding
end CodeAudit
