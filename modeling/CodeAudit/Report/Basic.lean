import CodeAudit.Moment
import CodeAudit.Outcome
import CodeAudit.Settings.Basic
namespace CodeAudit

/-- What a report tells of: the directory, what came of each analyzer, and the warnings. -/
structure Report where
  target : Path
  outcomes : List Outcome
  warnings : List String := []
  fix : Bool := false
  date : Moment
  deriving Repr

namespace Report

def project : String := "fast-cv"

def version : String := "0.2.0"

/-- The outcomes without an error. -/
def successes (r : Report) : List Outcome := r.outcomes.filter (·.succeeded)

/-- The findings in order, each with the analyzer that reports it. -/
def findings (r : Report) : List (String × Finding) :=
  r.successes.flatMap fun o => o.findings.map fun f => (o.tool, f)

/-- The time that all analyzers took, in milliseconds. -/
def duration (r : Report) : Double :=
  r.outcomes.foldl (fun sum o => sum.add o.duration) .zero

end Report
end CodeAudit
