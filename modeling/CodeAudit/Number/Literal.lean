import CodeAudit.Data.Basic
import CodeAudit.Number.Decimal
namespace CodeAudit

/-- A number as documents write it, without its sign. -/
structure Literal where
  whole : List Char
  fraction : List Char
  exponent : Option Int
  deriving DecidableEq, Repr

namespace Literal

/-- A way to read one digit or more, with what follows them. -/
abbrev Digits := List Char → Option (List Char × List Char)

/-- A whole part has no leading zeros. -/
def whole? (digits : Digits) : List Char → Option (List Char × List Char)
  | '0' :: cs => some (['0'], cs)
  | cs => digits cs

def fraction? (digits : Digits) : List Char → Option (List Char × List Char)
  | '.' :: cs => digits cs
  | _ => none

/-- An exponent with its mark. -/
def exponent? (digits : Digits) : List Char → Option (Int × List Char)
  | c :: cs =>
    if c = 'e' || c = 'E' then
      let (negative, cs) := Text.splitSign cs
      (digits cs).bind fun (ds, rest) =>
        (Text.decimal? ds).map fun n => (if negative then -(n : Int) else n, rest)
    else none
  | [] => none

/-- The longest number that a text begins with, and what follows it. A fraction or an exponent
without digits does not belong to it. -/
def longest? (digits : Digits) (cs : List Char) : Option (Literal × List Char) :=
  (whole? digits cs).map fun (whole, rest) =>
    let (fraction, rest) := (fraction? digits rest).getD ([], rest)
    match exponent? digits rest with
    | some (power, rest) => (⟨whole, fraction, some power⟩, rest)
    | none => (⟨whole, fraction, none⟩, rest)

/-- The value of a number: an integer, unless it has a fraction or an exponent. -/
def value {μ : Type} (negative : Bool) (l : Literal) : Except Unreadable (Data μ) :=
  if l.fraction.isEmpty && l.exponent.isNone then
    match Text.decimal? l.whole with
    | some n =>
      if Text.maxIntegerDigits < l.whole.length then .error (.integerTooLong l.whole.length)
      else .ok (.int (if negative then -n else n))
    | none => .error .malformed
  else
    match Double.Parts.toDouble negative ⟨l.whole, l.fraction, l.exponent.getD 0⟩ with
    | some x => .ok (.float x)
    | none => .error .malformed

end Literal
end CodeAudit
