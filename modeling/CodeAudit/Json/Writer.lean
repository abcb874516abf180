import CodeAudit.Data.Display
namespace CodeAudit.Json

/-- A character of a written text: plain if it is printable ASCII, else escaped. -/
def escaped (c : Char) : List Char :=
  let n := c.toNat
  if c = '"' || c = '\\' then ['\\', c]
  else if c = '\n' then ['\\', 'n']
  else if c = '\r' then ['\\', 'r']
  else if c = '\t' then ['\\', 't']
  else if c = '\x0c' then ['\\', 'f']
  else if c = '\x08' then ['\\', 'b']
  else if 0x20 ≤ n && n < 0x7f then [c]
  else if n < 0x10000 then '\\' :: 'u' :: Text.hex 4 n
  else
    '\\' :: 'u' :: Text.hex 4 (0xD800 + (n - 0x10000) / 0x400) ++
      '\\' :: 'u' :: Text.hex 4 (0xDC00 + (n - 0x10000) % 0x400)

def writtenText (s : String) : List Char := '"' :: s.toList.flatMap escaped ++ ['"']

def floatText : Double → String
  | .nan => "NaN"
  | .infinite negative => if negative then "-Infinity" else "Infinity"
  | x => x.text

/-- Where items begin: on one line, or each on a line of its own at a depth. -/
inductive Layout
  | line
  | indented (width depth : Nat)

def Layout.inner : Layout → Layout
  | line => line
  | indented width depth => indented width (depth + 1)

def Layout.break : Layout → List Char
  | line => []
  | indented width depth => '\n' :: List.replicate (width * depth) ' '

/-- What stands between two items. -/
def Layout.separator : Layout → List Char
  | line => [',', ' ']
  | indented width depth => ',' :: (indented width depth).break

mutual
def written (layout : Layout) : Json → List Char
  | .null => "null".toList
  | .bool b => if b then "true".toList else "false".toList
  | .int n => (integerText n).toList
  | .float x => (floatText x).toList
  | .text s => writtenText s
  | .list [] => ['[', ']']
  | .list (x :: xs) =>
    '[' :: layout.inner.break ++ written layout.inner x ++ writtenItems layout.inner xs ++
      layout.break ++ [']']
  | .record [] => ['\x7b', '\x7d']
  | .record ((n, x) :: xs) =>
    '\x7b' :: layout.inner.break ++ writtenText n ++ [':', ' '] ++ written layout.inner x ++
      writtenFields layout.inner xs ++ layout.break ++ ['\x7d']

/-- Further items, each after a separator. -/
def writtenItems (layout : Layout) : List Json → List Char
  | [] => []
  | x :: xs => layout.separator ++ written layout x ++ writtenItems layout xs

def writtenFields (layout : Layout) : Fields Empty → List Char
  | [] => []
  | (n, x) :: xs =>
    layout.separator ++ writtenText n ++ [':', ' '] ++ written layout x ++ writtenFields layout xs
end

mutual
/-- Whether every integer in a document has no more digits than are converted. -/
def writable : Json → Bool
  | .int n => integerFits n
  | .list items => writableItems items
  | .record fields => writableFields fields
  | _ => true

def writableItems : List Json → Bool
  | [] => true
  | x :: xs => writable x && writableItems xs

def writableFields : Fields Empty → Bool
  | [] => true
  | (_, x) :: xs => writable x && writableFields xs
end

/-- A document on one line, as another program writes it. -/
def line (v : Json) : String := String.ofList (written .line v)

/-- A document with each item on a line of its own, if it can be written. -/
def indented (v : Json) : Option String :=
  if writable v then some (String.ofList (written (.indented 2 0) v)) else none

end CodeAudit.Json
