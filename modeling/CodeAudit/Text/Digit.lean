import CodeAudit.Text.Blank
namespace CodeAudit.Text

/-- The digit zero of every script that writes decimal numbers. -/
def decimalZeros : List Nat :=
  [0x30, 0x660, 0x6F0, 0x7C0, 0x966, 0x9E6, 0xA66, 0xAE6, 0xB66, 0xBE6, 0xC66, 0xCE6, 0xD66,
   0xDE6, 0xE50, 0xED0, 0xF20, 0x1040, 0x1090, 0x17E0, 0x1810, 0x1946, 0x19D0, 0x1A80, 0x1A90,
   0x1B50, 0x1BB0, 0x1C40, 0x1C50, 0xA620, 0xA8D0, 0xA900, 0xA9D0, 0xA9F0, 0xAA50, 0xABF0,
   0xFF10, 0x104A0, 0x10D30, 0x11066, 0x110F0, 0x11136, 0x111D0, 0x112F0, 0x11450, 0x114D0,
   0x11650, 0x116C0, 0x11730, 0x118E0, 0x11950, 0x11C50, 0x11D50, 0x11DA0, 0x16A60, 0x16AC0,
   0x16B50, 0x1D7CE, 0x1D7D8, 0x1D7E2, 0x1D7EC, 0x1D7F6, 0x1E140, 0x1E2F0, 0x1E950, 0x1FBF0]

/-- Superscript, subscript and enclosed digits. -/
def otherDigitRanges : List (Nat × Nat) :=
  [(0xB2, 0xB3), (0xB9, 0xB9), (0x1369, 0x1371), (0x19DA, 0x19DA), (0x2070, 0x2070),
   (0x2074, 0x2079), (0x2080, 0x2089), (0x2460, 0x2468), (0x2474, 0x247C), (0x2488, 0x2490),
   (0x24EA, 0x24EA), (0x24F5, 0x24FD), (0x24FF, 0x24FF), (0x2776, 0x277E), (0x2780, 0x2788),
   (0x278A, 0x2792), (0x10A40, 0x10A43), (0x10E60, 0x10E68), (0x11052, 0x1105A),
   (0x1F100, 0x1F10A)]

/-- The value of a decimal digit of any script. -/
def decimalValue? (c : Char) : Option Nat :=
  decimalZeros.findSome? fun base =>
    if base ≤ c.toNat && c.toNat < base + 10 then some (c.toNat - base) else none

def isDecimal (c : Char) : Bool := (decimalValue? c).isSome

/-- A decimal digit, or one of the digits that only stand alone. -/
def isDigit (c : Char) : Bool :=
  isDecimal c || otherDigitRanges.any fun (low, high) => low ≤ c.toNat && c.toNat ≤ high

/-- The number written by decimal digits, most significant first, after the digits of `n`. -/
def decimalFrom (n : Nat) : List Char → Option Nat
  | [] => some n
  | c :: cs => (decimalValue? c).bind fun d => decimalFrom (10 * n + d) cs

/-- The number that a non-empty run of decimal digits writes. -/
def decimal? (cs : List Char) : Option Nat :=
  if cs.isEmpty then none else decimalFrom 0 cs

/-- The digits of a number grouped by single low lines, without them. -/
def ungroup : List Char → Option (List Char)
  | [] => some []
  | '_' :: _ => none
  | [c] => some [c]
  | c :: '_' :: d :: cs => if d = '_' then none else (ungroup (d :: cs)).map (c :: ·)
  | c :: cs => (ungroup cs).map (c :: ·)

def isAsciiDigit (c : Char) : Bool := '0' ≤ c && c ≤ '9'

/-- A sign, if there is one, and the rest. -/
def splitSign : List Char → Bool × List Char
  | '-' :: cs => (true, cs)
  | '+' :: cs => (false, cs)
  | cs => (false, cs)

/-- The longest run of decimal digits that is read as an integer. -/
def maxIntegerDigits : Nat := 4300

inductive IntegerFault
  | malformed
  | tooLong (digits : Nat)
  deriving DecidableEq, Repr

/-- The integer a text writes: white space around it, a sign, and digits of any script that may be
grouped by low lines. Too many digits are told before what follows them. -/
def readInteger (cs : List Char) : Except IntegerFault Int :=
  let (negative, body) := splitSign (dropMargins cs)
  let digits := body.takeWhile fun c => isDecimal c || c = '_'
  let rest := body.dropWhile fun c => isDecimal c || c = '_'
  match ungroup digits with
  | none => .error .malformed
  | some ds =>
    if maxIntegerDigits < ds.length then .error (.tooLong ds.length)
    else match rest, decimal? ds with
      | [], some n => .ok (if negative then -n else n)
      | _, _ => .error .malformed

end CodeAudit.Text
