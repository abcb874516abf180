import CodeAudit.Fault
import CodeAudit.Finding
import CodeAudit.Json.Reader
import CodeAudit.Text.Lines
namespace CodeAudit

/-- What an analyzer left behind when it ended. -/
structure Output where
  stdout : String := ""
  stderr : String := ""
  status : Int := 0
  /-- Whether it was asked about licenses. -/
  licenses : Bool := false
  /-- The files in its scratch directory. -/
  files : List (String × Text.Bytes) := []
  /-- What is said of a text that is no document. -/
  wording : String → String := fun _ => ""

namespace Output

/-- Nothing but white space was printed. -/
def silent (o : Output) : Bool := Text.blank o.stdout

/-- What a message shows of a long text. -/
def excerpt (s : String) (limit : Int) : String :=
  String.ofList (Text.before (Text.trim s.toList) limit)

def brief (s : String) : String := excerpt s 500

def fault {α : Type} (message : String) : Except Fault α := .error (.toolOutput message)

def unreadable {α : Type} (message : String) : Unreadable → Except Fault α
  | .malformed => fault message
  | .integerTooLong digits => .error (.numberTooLong digits)

/-- The document that an analyzer printed. -/
def document (tool stdout : String) : Except Fault Json :=
  match Json.parse stdout with
  | .ok v => .ok v
  | .error e => unreadable (tool ++ ": failed to parse JSON output: " ++ excerpt stdout 200) e

/-- The records among lines; lines that are no record are passed over. -/
def recordsIn : List (List Char) → Except Fault (List (Fields Empty))
  | [] => .ok []
  | line :: rest =>
    match Json.read line with
    | .ok (.record fields) => (recordsIn rest).map (fields :: ·)
    | .ok _ => recordsIn rest
    | .error .malformed => recordsIn rest
    | .error (.integerTooLong digits) => .error (.numberTooLong digits)

/-- The records that an analyzer printed one a line. -/
def records (stdout : String) : Except Fault (List (Fields Empty)) :=
  recordsIn (Text.splitLines (Text.trim stdout.toList))

/-- The number that a run of digits writes. -/
def digits (cs : List Char) : Except Fault Int :=
  match Text.readInteger cs with
  | .ok n => .ok n
  | .error .malformed => .error (.notNumber (String.ofList cs))
  | .error (.tooLong n) => .error (.numberTooLong n)

def above (n : Int) : Option Int := if 0 < n then some n else none

/-- A positive integer, as a number or as digits. -/
def positive? : Json → Except Fault (Option Int)
  | .int n => .ok (above n)
  | .text s =>
    let cs := Text.trim s.toList
    if !cs.isEmpty && cs.all Text.isDigit then (digits cs).map above else .ok none
  | _ => .ok none

/-- A text with something in it, without white space at its ends. -/
def phrase? : Json → Option String
  | .text s => if Text.blank s then none else some (Text.strip s)
  | _ => none

/-- The first positive integer among fields. -/
def number? (fields : Fields Empty) : List String → Except Fault (Option Int)
  | [] => .ok none
  | name :: names =>
    match positive? (fields.get name) with
    | .ok none => number? fields names
    | answer => answer

/-- A line given by the first of some fields that holds one, and zero without any. -/
def line (fields : Fields Empty) (names : List String) : Except Fault Int :=
  (number? fields names).map (·.getD 0)

/-- The first text with something in it among fields. -/
def text? (fields : Fields Empty) (names : List String) : Option String :=
  names.findSome? fun n => phrase? (fields.get n)

def text (fields : Fields Empty) (names : List String) (fallback : String) : String :=
  (text? fields names).getD fallback

/-- The items that a loop over a value goes through; what does not count as a value has none. -/
def items : Json → Except Fault (List Json)
  | .list items => .ok items
  | .text s => .ok (s.toList.map fun c => .text (String.ofList [c]))
  | .record fields => .ok (fields.map fun (n, _) => .text n)
  | v => if v.truthy then .error (.notIterable v.typeName) else .ok []

/-- Whether a value is one of some words; a value that holds others cannot be looked up. -/
def isOneOf (words : List String) : Json → Except Fault Bool
  | .text s => .ok (words.contains s)
  | .list items => .error (.unhashable (Data.list items : Json).typeName)
  | .record fields => .error (.unhashable (Data.record fields : Json).typeName)
  | _ => .ok false

/-- What each item yields in turn, up to the first failure. -/
def each {α β : Type} (f : α → Except Fault (List β)) : List α → Except Fault (List β)
  | [] => .ok []
  | x :: xs =>
    match f x with
    | .error e => .error e
    | .ok ys => (each f xs).map (ys ++ ·)

def severityIf (b : Bool) : Severity := if b then .error else .warning

end Output
end CodeAudit
