import CodeAudit.Outcome
import CodeAudit.Pattern.Filter
namespace CodeAudit

/-- The files that count: those that are not left out, and only some of these if there is a
restriction. -/
structure Scope where
  ignore : IgnoreFilter
  only : Option IncludeFilter := none
  deriving DecidableEq, Repr

def Scope.covers (s : Scope) (path : String) : Bool :=
  !s.ignore.ignores path && match s.only with
    | none => true
    | some f => f.includes path

namespace Outcome

/-- The same outcome with its files as read from a directory, and without findings in files that do
not count. -/
def localize (directory : Path) (scope : Scope) (o : Outcome) : Outcome :=
  if o.error.isSome then o
  else
    let localized := o.findings.map fun f => { f with file := directory.relativize f.file }
    { o with findings := localized.filter (scope.covers ·.file) }

end Outcome

/-- How a scan ends. -/
inductive ExitStatus
  | clean
  | findings
  | precheckFailed
  deriving DecidableEq, Repr

namespace ExitStatus

def code : ExitStatus → Nat
  | clean => 0
  | findings => 1
  | precheckFailed => 2

def decide (outcomes : List Outcome) : ExitStatus :=
  if outcomes.any (!·.findings.isEmpty) then findings else clean

end ExitStatus
end CodeAudit
