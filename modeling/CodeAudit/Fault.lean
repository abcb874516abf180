import CodeAudit.Number.Decimal
import CodeAudit.Path.Basic
import CodeAudit.Schema.Issue
import CodeAudit.Text.Utf8
import CodeAudit.Text.Words
namespace CodeAudit

/-- What the operating system refuses. -/
inductive SystemError
  | noEntry
  | permissionDenied
  | notDirectory
  | isDirectory
  | badFormat
  | tooManyLinks
  | alreadyExists
  | nameTooLong
  deriving DecidableEq, Repr

def SystemError.number : SystemError → Nat
  | noEntry => 2
  | permissionDenied => 13
  | notDirectory => 20
  | isDirectory => 21
  | badFormat => 8
  | tooManyLinks => 40
  | alreadyExists => 17
  | nameTooLong => 36

def SystemError.phrase : SystemError → String
  | noEntry => "No such file or directory"
  | permissionDenied => "Permission denied"
  | notDirectory => "Not a directory"
  | isDirectory => "Is a directory"
  | badFormat => "Exec format error"
  | tooManyLinks => "Too many levels of symbolic links"
  | alreadyExists => "File exists"
  | nameTooLong => "File name too long"

/-- The refusals that are taken to say that there is no such file. -/
def SystemError.isAbsence : SystemError → Bool
  | noEntry | notDirectory | tooManyLinks => true
  | _ => false

/-- Why a time limit cannot be waited for. -/
inductive LimitProblem
  | notNumber
  | infinite
  /-- More nanoseconds than the clock counts. -/
  | beyondClock
  /-- More milliseconds than are waited for at once. -/
  | beyondWait
  deriving DecidableEq, Repr

def LimitProblem.text : LimitProblem → String
  | notNumber => "cannot convert float NaN to integer"
  | infinite => "cannot convert float infinity to integer"
  | beyondClock => "timestamp too large to convert to C _PyTime_t"
  | beyondWait => "timeout is too large"

/-- Why an operation did not come to an answer. -/
inductive Fault
  /-- A directory that cannot be scanned. -/
  | unscannable (path : String)
  /-- A settings file that is no TOML document. -/
  | malformedSettings (path cause : String)
  /-- A settings file that may not be read. -/
  | unreadableSettings (path cause : String)
  /-- Settings that break a rule. -/
  | invalidSettings (issues : List Schema.Issue) (cause : String)
  /-- Requested analyzers that are not registered. -/
  | unknownTools (names available : List String)
  /-- An analyzer's output that is malformed or tells of a failure. -/
  | toolOutput (message : String)
  /-- A helper command that ended with another status than zero. -/
  | commandFailed (executable : String) (status : Int) (stderr : String)
  /-- An analyzer that did not end in time. -/
  | timedOut (limit : Double)
  /-- An executable that is in no directory of the search path. -/
  | notOnPath (executable : String)
  /-- A refusal of the operating system; `quoted` is the path as the message shows it. -/
  | system (error : SystemError) (quoted : String)
  | emptyCommand
  /-- A word of a command with a null character, which no program can be given. -/
  | nullCharacter
  /-- Bytes that are not UTF-8. -/
  | undecodable (cause : Text.Undecodable)
  /-- Digits that write no number. -/
  | notNumber (text : String)
  | numberTooLong (digits : Nat)
  /-- An integer with more digits than are written. -/
  | numberUnwritable
  | unfinishedWord (cause : Text.WordFault)
  /-- A value without items where a loop needs some. -/
  | notIterable (kind : String)
  /-- A value that cannot be looked up in a set. -/
  | unhashable (kind : String)
  /-- A value that breaks the rules of a model. -/
  | invalid (issues : List Schema.Issue)
  /-- A name that can only be read. -/
  | readOnly (name : String)
  /-- A value of a kind that a name cannot have. -/
  | wrongKind (name : String)
  /-- Settings of which what they go by was replaced. -/
  | noOptions
  | alreadyRegistered (name : String)
  | notRegistered (name : String)
  | unsupportedFormat (format : String)
  /-- A line that is refused as a glob pattern. -/
  | badPattern (line : String)
  /-- A bracket expression with a range from a later to an earlier character. -/
  | badRange (cause : String)
  /-- A time limit that the system cannot wait for. -/
  | limitOverflow (problem : LimitProblem)
  /-- Whatever an analyzer of another make may raise. -/
  | raised (kind text : String)

namespace Fault

/-- The fault of an operation that did not come to an answer. -/
def of? {α : Type} : Except Fault α → Option Fault
  | .ok _ => none
  | .error f => some f

def undecodableText (u : Text.Undecodable) : String :=
  match u.bytes with
  | [b] =>
    "'utf-8' codec can't decode byte 0x" ++ String.ofList (Text.hex 2 b.toNat) ++ " in position " ++
      Nat.repr u.position ++ ": " ++ u.reason
  | bytes =>
    "'utf-8' codec can't decode bytes in position " ++ Nat.repr u.position ++ "-" ++
      Nat.repr (u.position + bytes.length - 1) ++ ": " ++ u.reason

/-- A text in quotes as far as a message shows it. -/
def shown (text : String) : String := String.ofList ((Text.quoted text).toList.take 200)

/-- The text of a fault, which may be empty only for what an analyzer raised. -/
def message : Fault → String
  | unscannable path => "directory not found or not readable: " ++ path
  | malformedSettings path cause => "Invalid TOML in " ++ path ++ ": " ++ cause
  | unreadableSettings path cause => "Unable to read " ++ path ++ ": " ++ cause
  | invalidSettings _ cause => "Invalid configuration: " ++ cause
  | unknownTools names available =>
    "Unknown tool(s): " ++ ", ".intercalate names ++ ". Available: " ++ ", ".intercalate available
  | toolOutput message => message
  | commandFailed executable status stderr =>
    let detail := Text.strip stderr
    (Path.ofText executable).name ++ " exited with status " ++ integerText status ++ ": " ++
      (if detail.isEmpty then "<no stderr>" else detail)
  | timedOut limit => "Timeout after " ++ limit.general ++ "s"
  | notOnPath executable => "Executable '" ++ executable ++ "' was not found on PATH"
  | system error quoted =>
    "[Errno " ++ Nat.repr error.number ++ "] " ++ error.phrase ++ ": " ++ quoted
  | emptyCommand => "cannot run an empty command"
  | nullCharacter => "embedded null byte"
  | undecodable cause => undecodableText cause
  | notNumber text => "invalid literal for int() with base 10: " ++ shown text
  | numberTooLong digits =>
    "Exceeds the limit (" ++ Nat.repr Text.maxIntegerDigits ++
      " digits) for integer string conversion: value has " ++ Nat.repr digits ++
      " digits; use sys.set_int_max_str_digits() to increase the limit"
  | numberUnwritable =>
    "Exceeds the limit (" ++ Nat.repr Text.maxIntegerDigits ++
      " digits) for integer string conversion; use sys.set_int_max_str_digits() to increase the limit"
  | unfinishedWord .openQuote => "No closing quotation"
  | unfinishedWord .openEscape => "No escaped character"
  | notIterable kind => "'" ++ kind ++ "' object is not iterable"
  | unhashable kind => "unhashable type: '" ++ kind ++ "'"
  | invalid issues => "\n".intercalate (issues.map (·.problem.message))
  | readOnly name => "'" ++ name ++ "' can only be read"
  | wrongKind name => "'" ++ name ++ "' cannot have such a value"
  | noOptions => "the settings have no options"
  | alreadyRegistered name => "Tool '" ++ name ++ "' already registered"
  | notRegistered name => Text.quoted name
  | unsupportedFormat format => "unsupported output format: " ++ format
  | badPattern line => "Invalid git pattern: " ++ Text.quoted line
  | badRange cause => cause
  | limitOverflow problem => problem.text
  | raised _ text => text

/-- The text of a fault, or the name of its kind where there is none. -/
def summary (f : Fault) : String :=
  match f with
  | raised kind text => if text.isEmpty then kind else text
  | toolOutput message => if message.isEmpty then "ToolOutputError" else message
  | f => f.message

end Fault
end CodeAudit
