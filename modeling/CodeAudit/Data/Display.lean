import CodeAudit.Data.Basic
import CodeAudit.Number.Decimal
import CodeAudit.Text.Quoted
namespace CodeAudit

def integerText (n : Int) : String := if n < 0 then "-" ++ Nat.repr n.natAbs else Nat.repr n.natAbs

/-- Whether an integer has no more digits than are converted. -/
def integerFits (n : Int) : Bool := Decimal.digitCount n.natAbs ≤ Text.maxIntegerDigits

namespace Data

mutual
/-- A value as it stands inside another: texts are quoted. -/
def inspect : Json → String
  | null => "None"
  | bool b => if b then "True" else "False"
  | int n => integerText n
  | float x => x.text
  | text s => Text.quoted s
  | list items => "[" ++ inspectItems items ++ "]"
  | record fields => "\x7b" ++ inspectFields fields ++ "\x7d"

def inspectItems : List Json → String
  | [] => ""
  | [x] => inspect x
  | x :: xs => inspect x ++ ", " ++ inspectItems xs

def inspectFields : Fields Empty → String
  | [] => ""
  | [(n, x)] => Text.quoted n ++ ": " ++ inspect x
  | (n, x) :: xs => Text.quoted n ++ ": " ++ inspect x ++ ", " ++ inspectFields xs
end

/-- A value inside a message: a text is written as it is. -/
def display : Json → String
  | text s => s
  | x => inspect x

/-- The name of a value's kind in messages about values of the wrong kind. -/
def typeName : Json → String
  | null => "NoneType"
  | bool _ => "bool"
  | int _ => "int"
  | float _ => "float"
  | text _ => "str"
  | list _ => "list"
  | record _ => "dict"

end Data
end CodeAudit
