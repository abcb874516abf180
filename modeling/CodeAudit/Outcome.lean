import CodeAudit.Finding
namespace CodeAudit

/-- What came of running an analyzer: findings, or an error and no findings. -/
structure Outcome where
  tool : String
  findings : List Finding := []
  error : Option String := none
  /-- Milliseconds. -/
  duration : Double := .zero
  /-- A fix was asked for but not allowed. -/
  fixSkipped : Bool := false
  deriving DecidableEq, Repr

namespace Outcome
open Schema

def succeeded (o : Outcome) : Bool := o.error.isNone

/-- An error leaves no findings. -/
def Consistent (o : Outcome) : Prop := o.error ≠ none → o.findings = []

instance (o : Outcome) : Decidable o.Consistent :=
  inferInstanceAs (Decidable (o.error ≠ none → o.findings = []))

def check (o : Outcome) : Checked Outcome :=
  if o.Consistent then .ok o
  else reject (.rejected "a ToolResult with an error must not carry findings")

/-- An outcome from parts of which the findings are still a document. -/
def ofFields (fields : Fields Empty) : Checked Outcome :=
  (Checked.start Outcome.mk
    |>.also (required "tool" text fields)
    |>.also (defaulted "findings" [] (listOf Finding.ofData) fields)
    |>.also (defaulted "error" none (nullable text) fields)
    |>.also (defaulted "duration" .zero nonNegative fields)
    |>.also (defaulted "fix_skipped" false truth fields)).bind check

def ofData : Rule Empty Outcome := Schema.record "ToolResult" ofFields

end Outcome
end CodeAudit
