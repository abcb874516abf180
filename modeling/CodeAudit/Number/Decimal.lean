import CodeAudit.Number.Double
import CodeAudit.Text.Digit
namespace CodeAudit

/-- The decimal number `digits * 10 ^ exponent`. -/
structure Decimal where
  digits : Nat
  exponent : Int
  deriving DecidableEq, Repr

namespace Decimal

def digitCount (n : Nat) : Nat := (Nat.toDigits 10 n).length

/-- The integer part of `num / den` as written with `places` digits after the point, together with
what is left over, as a quotient by the returned divisor. -/
def onGrid (num den : Nat) (exponent : Int) : Nat × Nat :=
  if 0 ≤ exponent then (num, den * Nat.pow 10 exponent.toNat)
  else (num * Nat.pow 10 (-exponent).toNat, den)

/-- The power of ten just above `num / den`, for a positive quotient. -/
def magnitude (num den : Nat) : Int :=
  if den ≤ num then digitCount (num / den)
  else
    -- one more than the zeros that follow the point
    let shift := digitCount (den / num)
    let (n, d) := onGrid num den (-(shift : Int))
    (digitCount (n / d) : Int) - shift

/-- Digits without the zeros at their end. -/
def strip (d : Decimal) : Decimal :=
  go (digitCount d.digits) d
where
  go : Nat → Decimal → Decimal
    | 0, d => d
    | n + 1, d =>
      if d.digits ≠ 0 ∧ d.digits % 10 = 0 then go n ⟨d.digits / 10, d.exponent + 1⟩ else d

/-- Twice the ends of the interval of numbers of units that round to a finite double; the ends
belong to it when the significand is even. -/
def interval (m scale : Nat) : Nat × Nat :=
  let high := (2 * m + 1) * Nat.pow 2 scale
  if m = Nat.pow 2 52 ∧ scale ≠ 0 then ((4 * m - 1) * Nat.pow 2 (scale - 1), high)
  else ((2 * m - 1) * Nat.pow 2 scale, high)

/-- Whether `d` lies in the interval of a double. -/
def readsBack (m scale : Nat) (d : Decimal) : Bool :=
  let (low, high) := interval m scale
  -- d = dn / dd; twice its units are 2 * dn * 2 ^ 1074 / dd
  let (dn, dd) :=
    if 0 ≤ d.exponent then (d.digits * Nat.pow 10 d.exponent.toNat, 1)
    else (d.digits, Nat.pow 10 (-d.exponent).toNat)
  let n := 2 * dn * Double.one
  if m % 2 = 0 then low * dd ≤ n && n ≤ high * dd else low * dd < n && n < high * dd

/-- The nearest of the two neighbours of a double on the grid of `10 ^ exponent` that read back. -/
def candidate (m scale : Nat) (exponent : Int) : Option Decimal :=
  let (n, d) := onGrid (m * Nat.pow 2 scale) Double.one exponent
  let below : Decimal := ⟨n / d, exponent⟩
  let above : Decimal := ⟨n / d + 1, exponent⟩
  let nearest := if Double.roundHalfEven n d = n / d then [below, above] else [above, below]
  nearest.find? (readsBack m scale)

/-- The shortest decimal that reads back as the positive double, the nearest of these. -/
def shortest (m scale : Nat) : Decimal :=
  let top := magnitude (m * Nat.pow 2 scale) Double.one
  let found := (List.range 17).findSome? fun n => candidate m scale (top - (n + 1 : Nat))
  strip (found.getD ⟨0, 0⟩)

/-- The quotient of units rounded to a number of significant digits. -/
def significant (count : Nat) (m scale : Nat) : Decimal :=
  let top := magnitude (m * Nat.pow 2 scale) Double.one
  let (n, d) := onGrid (m * Nat.pow 2 scale) Double.one (top - count)
  ⟨Double.roundHalfEven n d, top - count⟩

def text (n : Nat) : String := Nat.repr n

/-- Digits with the point after the first of them, and the power of ten that goes with it. -/
def scientific (d : Decimal) : String :=
  let ds := Nat.toDigits 10 d.digits
  let power : Int := d.exponent + (ds.length - 1 : Nat)
  let fraction := if ds.length ≤ 1 then [] else '.' :: ds.drop 1
  let size := Nat.toDigits 10 power.natAbs
  String.ofList (ds.take 1 ++ fraction ++ ['e', if power < 0 then '-' else '+'] ++
    (if size.length < 2 then '0' :: size else size))

/-- Digits with the point at its place, followed by a digit when `whole` asks for one. -/
def positional (d : Decimal) (whole : String) : String :=
  let ds := Nat.toDigits 10 d.digits
  if 0 ≤ d.exponent then
    String.ofList (ds ++ List.replicate d.exponent.toNat '0') ++ whole
  else
    let places := (-d.exponent).toNat
    let padded := List.replicate (places + 1 - ds.length) '0' ++ ds
    let point := padded.length - places
    String.ofList (padded.take point ++ '.' :: padded.drop point)

end Decimal

namespace Double

/-- How numbers are laid out: the least power of ten written with a point, the first one written
with an exponent again, and what follows a whole number. -/
structure Layout where
  least : Int
  most : Int
  whole : String

/-- A sign and a magnitude, or the name of what is no number. -/
def spelled (layout : Layout) (digits : Nat → Nat → Decimal) : Double → String
  | nan => "nan"
  | infinite negative => if negative then "-inf" else "inf"
  | finite negative m scale =>
    let sign := if negative then "-" else ""
    if m = 0 then sign ++ "0" ++ layout.whole
    else
      let d := digits m scale
      let power := d.exponent + (Decimal.digitCount d.digits - 1 : Nat)
      if layout.least ≤ power ∧ power < layout.most then sign ++ d.positional layout.whole
      else sign ++ d.scientific

/-- The shortest text that reads back, with a point or an exponent. -/
def text (x : Double) : String := spelled ⟨-4, 16, ".0"⟩ Decimal.shortest x

/-- Six significant digits, without zeros at the end. -/
def general (x : Double) : String :=
  spelled ⟨-4, 6, ""⟩ (fun m scale => (Decimal.significant 6 m scale).strip) x

/-- One digit after the point. -/
def tenths : Double → String
  | nan => "nan"
  | infinite negative => if negative then "-inf" else "inf"
  | finite negative m scale =>
    (if negative then "-" else "") ++
      Decimal.positional ⟨roundHalfEven (m * Nat.pow 2 scale * 10) one, -1⟩ ""

/-- The digits before and after a point and the power of ten of a number's text. -/
structure Parts where
  whole : List Char
  fraction : List Char
  exponent : Int

def Parts.toDouble (negative : Bool) (p : Parts) : Option Double :=
  (Text.decimal? (p.whole ++ p.fraction)).map fun n =>
    ofDecimal negative n (p.exponent - p.fraction.length)

/-- The exponent that follows the digits of a number's text: none, or one with its mark. -/
def readExponent : List Char → Option Int
  | [] => some 0
  | c :: cs =>
    if c = 'e' || c = 'E' then
      let (negative, ds) := Text.splitSign cs
      (Text.decimal? ds).map fun n => if negative then -(n : Int) else n
    else none

/-- The digits up to the first other character, and what follows them. -/
def splitDigits (cs : List Char) : List Char × List Char :=
  (cs.takeWhile Text.isDecimal, cs.dropWhile Text.isDecimal)

/-- A number as text: an optional sign, digits of any script with an optional point among them and
an optional exponent, or the name of an infinity or of no number. -/
def read? (cs : List Char) : Option Double :=
  let (negative, body) := Text.splitSign cs
  let name := body.map Char.toLower
  if name = "inf".toList || name = "infinity".toList then some (infinite negative)
  else if name = "nan".toList then some nan
  else
    let (whole, rest) := splitDigits body
    let (fraction, rest) := match rest with
      | '.' :: rest => splitDigits rest
      | rest => ([], rest)
    (readExponent rest).bind fun exponent => Parts.toDouble negative ⟨whole, fraction, exponent⟩

/-- A text without its low lines, each of which has to stand between two digits. -/
def ungroupBetween (earlier : Option Char) : List Char → Option (List Char)
  | [] => some []
  | '_' :: cs =>
    if (earlier.map Text.isDecimal).getD false && (cs.head?.map Text.isDecimal).getD false then
      ungroupBetween none cs
    else none
  | c :: cs => (ungroupBetween (some c) cs).map (c :: ·)

/-- As `read?`, with white space around and low lines between digits. -/
def readGrouped? (cs : List Char) : Option Double :=
  (ungroupBetween none (Text.dropMargins cs)).bind read?

end Double
end CodeAudit
