import CodeAudit.Text.Width
namespace CodeAudit

/-- What a line about the course of a scan is for. -/
inductive StatusKind
  | info
  | ok
  | warn
  | fail
  deriving DecidableEq, Repr

def StatusKind.sign : StatusKind → String
  | info => "ℹ️ "
  | ok => "✅ "
  | warn => "⚠️ "
  | fail => "❌ "

/-- A line about the course of a scan, with its sign if signs are wanted. -/
def statusLine (kind : StatusKind) (emoji : Bool) (message : String) : String :=
  let line := (if emoji then kind.sign else "") ++ message
  String.ofList (Text.onScreen line.toList) ++ "\n"

end CodeAudit
