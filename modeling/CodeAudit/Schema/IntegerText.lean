import CodeAudit.Text.Digit
namespace CodeAudit.Schema.IntegerText
open Text

/-- A text that is an integer as it stands: an optional minus and ASCII digits, of which the first
is no zero in front of others. The minus counts among the digits when there are too many. -/
def plain (cs : List Char) : Except IntegerFault Int :=
  let (negative, body) := match cs with
    | '-' :: cs => (true, cs)
    | cs => (false, cs)
  let digits := body.takeWhile isAsciiDigit
  let rest := body.dropWhile isAsciiDigit
  let size := cs.length - rest.length
  if digits.head? = some '0' then
    if digits.length = 1 && rest.isEmpty then .ok 0 else .error .malformed
  else if maxIntegerDigits < size then .error (.tooLong size)
  else match rest, decimal? digits with
    | [], some n => .ok (if negative then -n else n)
    | _, _ => .error .malformed

/-- What is left after zeros, the last character passed over being `last`. Low lines are passed over
with them, a minus may follow them, and before a point one character stays. -/
def afterZeros (last : Char) : List Char → Option (List Char)
  | [] => some [last]
  | c :: cs =>
    if c = '0' || c = '_' then afterZeros c cs
    else if c = '-' || ('1' ≤ c && c ≤ '9') then some (c :: cs)
    else if c = '.' then some (last :: c :: cs)
    else none

/-- Digits without the zeros in front of them. -/
def dropZeros : List Char → Option (List Char)
  | [] => none
  | c :: cs =>
    if c = '0' then afterZeros c cs
    else if '1' ≤ c && c ≤ '9' then some (c :: cs)
    else none

/-- A text without white space around it, without a plus, and without zeros in front. -/
def dropFront (cs : List Char) : Option (List Char) :=
  match dropMargins cs with
  | '+' :: cs => dropZeros cs
  | '-' :: cs => (dropZeros cs).map ('-' :: ·)
  | cs => dropZeros cs

/-- A text without its point and what follows it, if that is one zero or more. -/
def dropFraction (cs : List Char) : List Char :=
  let fraction := (cs.dropWhile (· != '.')).drop 1
  if !fraction.isEmpty && fraction.all (· == '0') then cs.takeWhile (· != '.') else cs

/-- Two low lines in a row. -/
def doubled : List Char → Bool
  | '_' :: '_' :: _ => true
  | _ :: cs => doubled cs
  | [] => false

/-- A text without its low lines, each of which has to stand alone between other characters. -/
def joined? (cs : List Char) : Option (List Char) :=
  if cs.head? = some '_' || cs.getLast? = some '_' || doubled cs then none
  else some (cs.filter (· != '_'))

/-- An integer as text: as it stands, or else after what goes around and between its digits is taken
away. -/
def read (cs : List Char) : Except IntegerFault Int :=
  match plain cs with
  | .error .malformed =>
    match dropFront cs with
    | some cs =>
      let cs := dropFraction cs
      plain ((joined? cs).getD cs)
    | none => .error .malformed
  | answer => answer

end CodeAudit.Schema.IntegerText
