import CodeAudit.Text.CaseTable
namespace CodeAudit.Text

def inRanges (n : Nat) (ranges : List (Nat × Nat)) : Bool :=
  ranges.any fun (low, high) => low ≤ n && n ≤ high

def shifted (n : Nat) (shifts : List (Nat × Nat × Nat × Int)) : Option Nat :=
  shifts.findSome? fun (low, high, step, distance) =>
    if low ≤ n && n ≤ high && (n - low) % step == 0 then some (n + distance).toNat else none

/-- The image of a letter from U+0080 on under a case mapping given by its two tables. -/
def mapped (shifts : List (Nat × Nat × Nat × Int)) (expansions : List (Nat × List Nat))
    (c : Char) : List Char :=
  match expansions.lookup c.toNat with
  | some codes => codes.map Char.ofNat
  | none => [((shifted c.toNat shifts).map Char.ofNat).getD c]

def upperChar (c : Char) : List Char :=
  if c.toNat < 0x80 then [c.toUpper] else mapped upperShifts upperExpansions c

def lowerChar (c : Char) : List Char :=
  if c.toNat < 0x80 then [c.toLower] else mapped lowerShifts lowerExpansions c

def isCaseIgnorable (c : Char) : Bool :=
  if c.toNat < 0x80 then c == '\'' || c == '.' || c == ':' || c == '^' || c == '\x60'
  else inRanges c.toNat caseIgnorableRanges

def isCased (c : Char) : Bool :=
  if c.toNat < 0x80 then c.isAlpha else inRanges c.toNat casedRanges

/-- Whether the nearest character that counts has case. -/
def nextIsCased (cs : List Char) : Bool :=
  ((cs.dropWhile isCaseIgnorable).head?.map isCased).getD false

/-- The small form of a text whose characters before it, nearest first, are `earlier`. A capital
sigma that ends a word takes the final form. -/
def lowerAfter (earlier : List Char) : List Char → List Char
  | [] => []
  | c :: cs =>
    (if c = 'Σ' then [if nextIsCased earlier && !nextIsCased cs then 'ς' else 'σ']
     else lowerChar c) ++ lowerAfter (c :: earlier) cs

def upper (s : String) : String := String.ofList (s.toList.flatMap upperChar)

def lower (s : String) : String := String.ofList (lowerAfter [] s.toList)

end CodeAudit.Text
