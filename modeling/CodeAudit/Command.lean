import CodeAudit.Schema.Rule
namespace CodeAudit

/-- A program to start, with its arguments and the directory to start it in. -/
structure Command where
  executable : String
  args : List String := []
  workingDir : Option Path := none
  deriving DecidableEq, Repr

namespace Command
open Schema

def argv (c : Command) : List String := c.executable :: c.args

/-- Arguments are written out, whatever they are. -/
def argsRule : Rule Empty (List String)
  | .list items => .ok (items.map Data.display)
  | _ => reject .notSequence

def ofFields (fields : Fields Empty) : Checked Command :=
  Checked.start Command.mk
    |>.also (required "executable" text fields)
    |>.also (defaulted "args" [] argsRule fields)
    |>.also (defaulted "working_dir" none (nullable location) fields)

def ofData : Rule Empty Command := Schema.record "Command" ofFields

end Command
end CodeAudit
