import CodeAudit.Path.Basic
import CodeAudit.Schema.IntegerText
import CodeAudit.Schema.Issue
import CodeAudit.Text.Case
namespace CodeAudit.Schema

/-- A value that was checked, or everything that is wrong with it. -/
abbrev Checked (α : Type) := Except (List Issue) α

/-- A way to read a value of a document. -/
abbrev Rule (μ α : Type) := Data μ → Checked α

def reject {α : Type} (problem : Problem) : Checked α := .error [⟨[], problem⟩]

def Checked.under {α : Type} (step : Step) : Checked α → Checked α
  | .ok a => .ok a
  | .error issues => .error (issues.map (·.under step))

/-- Before any check. -/
def Checked.start {α : Type} (a : α) : Checked α := .ok a

/-- Checks go on after a failure, and its issues come before those found later. -/
def Checked.also {α β : Type} : Checked (α → β) → Checked α → Checked β
  | .ok f, .ok a => .ok (f a)
  | .ok _, .error later => .error later
  | .error issues, .ok _ => .error issues
  | .error issues, .error later => .error (issues ++ later)

variable {μ α : Type}

def text : Rule μ String
  | .text s => .ok s
  | _ => reject .notText

/-- Whether an integer lies strictly between the ends of the 64-bit words. -/
def insideWords (n : Int) : Bool := -Int.pow 2 63 < n && n < Int.pow 2 63

def integer : Rule μ Int
  | .int n => .ok n
  | .bool b => .ok (if b then 1 else 0)
  | .float x =>
    if x.isFinite then
      match x.toInt? with
      | some n => if insideWords n then .ok n else reject .integerTooLarge
      | none => reject .fractional
    else reject .notFinite
  | .text s =>
    match IntegerText.read s.toList with
    | .ok n => .ok n
    | .error .malformed => reject .unreadableInteger
    | .error (.tooLong _) => reject .integerTooLarge
  | _ => reject .notInteger

def integerFrom (bound : Int) : Rule μ Int := fun v =>
  (integer v).bind fun n => if n < bound then reject (.below bound) else .ok n

/-- A number as text, with white space around it or with single low lines inside it. -/
def numberOfText (cs : List Char) : Option Double :=
  let ascii (cs : List Char) : Option Double :=
    if cs.all (·.toNat < 0x80) then Double.read? cs else none
  match ascii (Text.dropMargins cs) with
  | some x => some x
  | none => (IntegerText.joined? cs).bind ascii

def number : Rule μ Double
  | .float x => .ok x
  | .int n => if (Double.ofInt n).isFinite then .ok (Double.ofInt n) else reject .notNumber
  | .bool b => .ok (Double.ofInt (if b then 1 else 0))
  | .text s =>
    match numberOfText s.toList with
    | some x => .ok x
    | none => reject .unreadableNumber
  | _ => reject .notNumber

def positive : Rule μ Double := fun v =>
  (number v).bind fun x => if Double.zero.lt x then .ok x else reject (.notAbove 0)

def nonNegative : Rule μ Double := fun v =>
  (number v).bind fun x => if Double.zero.le x then .ok x else reject (.below 0)

def falseWords : List String := ["0", "off", "f", "false", "n", "no"]

def trueWords : List String := ["1", "on", "t", "true", "y", "yes"]

def truthOfInt (n : Int) : Checked Bool :=
  if n = 0 then .ok false else if n = 1 then .ok true else reject .unreadableTruth

/-- Zero and one stand for truth values; larger numbers than words hold are not even compared with
them. -/
def truth : Rule μ Bool
  | .bool b => .ok b
  | .int n => if n = -Int.pow 2 63 || insideWords n then truthOfInt n else reject .notTruth
  | .float x =>
    match x.toInt? with
    | some n => if insideWords n then truthOfInt n else reject .notTruth
    | none => reject .notTruth
  | .text s =>
    let word := String.ofList (s.toList.map Char.toLower)
    if falseWords.contains word then .ok false
    else if trueWords.contains word then .ok true
    else reject .unreadableTruth
  | _ => reject .notTruth

def nullable (rule : Rule μ α) : Rule μ (Option α)
  | .null => .ok none
  | v => (rule v).map some

/-- The items from position `index` on, each by the same rule. -/
def itemsFrom (rule : Rule μ α) (index : Nat) : List (Data μ) → Checked (List α)
  | [] => .ok []
  | v :: vs =>
    Checked.also (((rule v).under (.item index)).map List.cons) (itemsFrom rule (index + 1) vs)

def listOf (rule : Rule μ α) : Rule μ (List α)
  | .list items => itemsFrom rule 0 items
  | _ => reject .notList

/-- One of some words, each with its meaning. -/
def oneOf (literal : Bool) (choices : List (String × α)) : Rule μ α := fun v =>
  match v with
  | .text s =>
    match choices.lookup s with
    | some a => .ok a
    | none => reject (.notOneOf literal (choices.map (·.1)))
  | _ => reject (.notOneOf literal (choices.map (·.1)))

def location : Rule μ Path
  | .text s => .ok (Path.ofText s)
  | _ => reject .notPath

/-- A field that has to be there. -/
def required (name : String) (rule : Rule μ α) (fields : Fields μ) : Checked α :=
  (match fields.find? name with
    | some v => rule v
    | none => reject .missing).under (.field name)

/-- A field with a value for when it is not there. -/
def defaulted (name : String) (fallback : α) (rule : Rule μ α) (fields : Fields μ) : Checked α :=
  match fields.find? name with
  | some v => (rule v).under (.field name)
  | none => .ok fallback

/-- A record, read by its fields. -/
def record (model : String) (rule : Fields μ → Checked α) : Rule μ α
  | .record fields => rule fields
  | _ => reject (.notRecord model)

end CodeAudit.Schema
