import CodeAudit.Data.Basic
import CodeAudit.Text.Digit
namespace CodeAudit.Toml

structure Date where
  year : Nat
  month : Nat
  day : Nat
  deriving DecidableEq, Repr

structure Clock where
  hour : Nat
  minute : Nat
  second : Nat
  microsecond : Nat
  deriving DecidableEq, Repr

/-- A date, a time of day, or both, then perhaps with minutes ahead of universal time. -/
inductive Temporal
  | date (d : Date)
  | clock (c : Clock)
  | instant (d : Date) (c : Clock) (offset : Option Int)
  deriving DecidableEq, Repr

abbrev Value := Data Temporal

/-- Decimal digits of a number, at least `width` of them. -/
def padded (width n : Nat) : String :=
  let ds := Nat.toDigits 10 n
  String.ofList (List.replicate (width - ds.length) '0' ++ ds)

def Date.text (d : Date) : String :=
  padded 4 d.year ++ "-" ++ padded 2 d.month ++ "-" ++ padded 2 d.day

def Clock.text (c : Clock) : String :=
  padded 2 c.hour ++ ":" ++ padded 2 c.minute ++ ":" ++ padded 2 c.second ++
    if c.microsecond = 0 then "" else "." ++ padded 6 c.microsecond

def offsetText (minutes : Int) : String :=
  (if minutes < 0 then "-" else "+") ++ padded 2 (minutes.natAbs / 60) ++ ":" ++
    padded 2 (minutes.natAbs % 60)

def Temporal.text : Temporal → String
  | date d => d.text
  | clock c => c.text
  | instant d c offset => d.text ++ "T" ++ c.text ++ (offset.map offsetText).getD ""

def isLeap (year : Nat) : Bool := year % 4 = 0 && (year % 100 ≠ 0 || year % 400 = 0)

def daysIn (year month : Nat) : Nat :=
  if month = 2 then if isLeap year then 29 else 28
  else if [4, 6, 9, 11].contains month then 30 else 31

/-- A day of the calendar, which starts with the year one. -/
def Date.exists (d : Date) : Bool := 0 < d.year && d.day ≤ daysIn d.year d.month

/-- A number of just `width` digits between two bounds, and what follows it. -/
def fixed (width low high : Nat) (cs : List Char) : Option (Nat × List Char) :=
  let ds := cs.take width
  if ds.length = width && ds.all Text.isAsciiDigit then
    (Text.decimal? ds).bind fun n =>
      if low ≤ n && n ≤ high then some (n, cs.drop width) else none
  else none

def skip (c : Char) : List Char → Option (List Char)
  | d :: cs => if d = c then some cs else none
  | [] => none

/-- Digits after a point as millionths; digits after the sixth do not count. -/
def microseconds (ds : List Char) : Nat :=
  let six := ds.take 6
  ((Text.decimal? (six ++ List.replicate (6 - six.length) '0')).getD 0)

def clock? (cs : List Char) : Option (Clock × List Char) := do
  let (hour, cs) ← fixed 2 0 23 cs
  let (minute, cs) ← fixed 2 0 59 (← skip ':' cs)
  let (second, cs) ← fixed 2 0 59 (← skip ':' cs)
  match cs with
  | '.' :: rest =>
    let ds := rest.takeWhile Text.isAsciiDigit
    if ds.isEmpty then return (⟨hour, minute, second, 0⟩, cs)
    else return (⟨hour, minute, second, microseconds ds⟩, rest.dropWhile Text.isAsciiDigit)
  | cs => return (⟨hour, minute, second, 0⟩, cs)

def date? (cs : List Char) : Option (Date × List Char) := do
  let (year, cs) ← fixed 4 0 9999 cs
  let (month, cs) ← fixed 2 1 12 (← skip '-' cs)
  let (day, cs) ← fixed 2 1 31 (← skip '-' cs)
  return (⟨year, month, day⟩, cs)

/-- Minutes ahead of universal time with a sign before them. -/
def signedOffset? (negative : Bool) (cs : List Char) : Option (Int × List Char) := do
  let (hour, cs) ← fixed 2 0 23 cs
  let (minute, cs) ← fixed 2 0 59 (← skip ':' cs)
  let n : Int := (hour * 60 + minute : Nat)
  return (if negative then -n else n, cs)

def offset (cs : List Char) : Option Int × List Char :=
  let signed (negative : Bool) (rest : List Char) : Option Int × List Char :=
    match signedOffset? negative rest with
    | some (n, rest) => (some n, rest)
    | none => (none, cs)
  match cs with
  | 'Z' :: rest => (some 0, rest)
  | 'z' :: rest => (some 0, rest)
  | '+' :: rest => signed false rest
  | '-' :: rest => signed true rest
  | cs => (none, cs)

/-- The time of day that follows a date after a mark, if one does. -/
def timeAfter? : List Char → Option (Clock × List Char)
  | c :: cs => if c = 'T' || c = 't' || c = ' ' then clock? cs else none
  | [] => none

/-- A date with or without a time, or a time, and what follows it. A date has to exist. -/
def temporal? (cs : List Char) : Option (Except Unreadable (Temporal × List Char)) :=
  match date? cs with
  | some (d, rest) =>
    if !d.exists then some (.error .malformed)
    else match timeAfter? rest with
      | some (c, rest) =>
        let (o, rest) := offset rest
        some (.ok (.instant d c o, rest))
      | none => some (.ok (.date d, rest))
  | none => (clock? cs).map fun (c, rest) => .ok (.clock c, rest)

end CodeAudit.Toml
