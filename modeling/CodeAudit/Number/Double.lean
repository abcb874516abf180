namespace CodeAudit

/-- A number in double precision. A finite one stands for `significand * 2 ^ scale` units of
`2 ^ (-1074)`. -/
inductive Double
  | nan
  | infinite (negative : Bool)
  | finite (negative : Bool) (significand : Nat) (scale : Nat)
  deriving DecidableEq, Repr, Inhabited

namespace Double

/-- The natural number nearest to a quotient; a half goes to the even neighbour. -/
def roundHalfEven (num den : Nat) : Nat :=
  let q := num / den
  let twice := 2 * (num % den)
  if twice < den then q else if den < twice then q + 1 else q + q % 2

/-- The units in the number one. -/
def one : Nat := Nat.pow 2 1074

/-- The double nearest to a quotient of units. -/
def ofUnits (negative : Bool) (num den : Nat) : Double :=
  let scale := Nat.log2 (num / den) - 52
  let m := roundHalfEven num (den * Nat.pow 2 scale)
  let (m, scale) := if m = Nat.pow 2 53 then (Nat.pow 2 52, scale + 1) else (m, scale)
  if 2045 < scale then infinite negative else finite negative m scale

def ofRatio (negative : Bool) (num den : Nat) : Double := ofUnits negative (num * one) den

def zero : Double := finite false 0 0

def ofInt (n : Int) : Double := ofRatio (n < 0) n.natAbs 1

/-- The double nearest to `digits * 10 ^ exponent`. Exponents far out of range are not written
out. -/
def ofDecimal (negative : Bool) (digits : Nat) (exponent : Int) : Double :=
  let size : Int := Nat.log2 digits
  if digits = 0 then finite negative 0 0
  else if 0 ≤ exponent then
    if 1100 < exponent then infinite negative
    else ofRatio negative (digits * Nat.pow 10 exponent.toNat) 1
  else if size + 3 * exponent < -1200 then finite negative 0 0
  else ofRatio negative digits (Nat.pow 10 (-exponent).toNat)

/-- The units of a finite double, with its sign. -/
def units (negative : Bool) (significand scale : Nat) : Int :=
  let n : Int := (significand * Nat.pow 2 scale : Nat)
  if negative then -n else n

/-- Sums are exact and then rounded; zeros of two signs add up to the positive one. -/
def add : Double → Double → Double
  | nan, _ => nan
  | _, nan => nan
  | infinite s, infinite t => if s = t then infinite s else nan
  | infinite s, finite _ _ _ => infinite s
  | finite _ _ _, infinite t => infinite t
  | finite s m p, finite t n q =>
    let sum := units s m p + units t n q
    if sum = 0 then finite (s && t) 0 0 else ofUnits (sum < 0) sum.natAbs 1

/-- The quotient by a positive natural number. -/
def divNat (x : Double) (n : Nat) : Double :=
  match x with
  | finite s m p => ofUnits s (m * Nat.pow 2 p) n
  | x => x

/-- Numeric order; nothing is ordered with `nan`. -/
def le : Double → Double → Bool
  | nan, _ => false
  | _, nan => false
  | infinite true, _ => true
  | _, infinite false => true
  | infinite false, _ => false
  | _, infinite true => false
  | finite s m p, finite t n q => units s m p ≤ units t n q

def lt (x y : Double) : Bool := le x y && !le y x

/-- Numeric equality, for which the two zeros are one. -/
def same (x y : Double) : Bool := le x y && le y x

/-- The whole number a double is. -/
def toInt? : Double → Option Int
  | finite s m p =>
    let n := m * Nat.pow 2 p
    if n % one = 0 then some (if s then -(n / one : Nat) else (n / one : Nat)) else none
  | _ => none

def isFinite : Double → Bool
  | finite _ _ _ => true
  | _ => false

end Double
end CodeAudit
