import CodeAudit.Json.Token
import CodeAudit.Toml.Temporal
namespace CodeAudit.Toml

/-- What a part of a document stands for, and what follows it. -/
abbrev Parsed (α : Type) := Except Unreadable (α × List Char)

def malformed {α : Type} : Except Unreadable α := .error .malformed

def isGap (c : Char) : Bool := c == ' ' || c == '\t'

def isGapOrLine (c : Char) : Bool := isGap c || c == '\n'

/-- Control characters other than the tab; a line feed is allowed in texts of many lines. -/
def isIllegal (manyLines : Bool) (c : Char) : Bool :=
  (c.toNat < 0x20 || c.toNat = 0x7F) && c != '\t' && !(manyLines && c = '\n')

/-- What stands before the first occurrence of a mark, and what follows the mark. -/
def splitAtMark (mark : List Char) : List Char → Option (List Char × List Char)
  | [] => none
  | c :: cs =>
    if mark.isPrefixOf (c :: cs) then some ([], (c :: cs).drop mark.length)
    else (splitAtMark mark cs).map fun (first, rest) => (c :: first, rest)

/-- A text that ends with a mark and has no escapes. -/
def literal (manyLines : Bool) (mark cs : List Char) : Parsed (List Char) :=
  match splitAtMark mark cs with
  | some (inner, rest) => if inner.any (isIllegal manyLines) then malformed else .ok (inner, rest)
  | none => malformed

/-- The character that hexadecimal digits name. -/
def scalar? (ds : List Char) : Option Char :=
  (ds.foldlM (fun n d => (Json.hexValue? d).map (n * 16 + ·)) 0).bind fun n =>
    if n < 0xD800 || (0xE000 ≤ n && n < 0x110000) then some (Char.ofNat n) else none

/-- A character given by `width` hexadecimal digits. -/
def unicode (width : Nat) (cs : List Char) : Parsed Char :=
  if cs.length < width then malformed
  else match scalar? (cs.take width) with
    | some c => .ok (c, cs.drop width)
    | none => malformed

/-- What follows a backslash: a character, or a line end, which goes with the white space after
it. -/
def escape (manyLines : Bool) : List Char → Parsed (List Char)
  | 'u' :: cs => (unicode 4 cs).map fun (c, rest) => ([c], rest)
  | 'U' :: cs => (unicode 8 cs).map fun (c, rest) => ([c], rest)
  | 'b' :: cs => .ok (['\x08'], cs)
  | 't' :: cs => .ok (['\t'], cs)
  | 'n' :: cs => .ok (['\n'], cs)
  | 'f' :: cs => .ok (['\x0c'], cs)
  | 'r' :: cs => .ok (['\r'], cs)
  | '"' :: cs => .ok (['"'], cs)
  | '\\' :: cs => .ok (['\\'], cs)
  | cs =>
    match manyLines, cs.dropWhile isGap with
    | true, '\n' :: rest => .ok ([], rest.dropWhile isGapOrLine)
    | _, _ => malformed

/-- A text up to its closing quotes, of which there are three if it may have many lines. The first
argument bounds the number of characters. -/
def basicFrom (manyLines : Bool) : Nat → List Char → Parsed (List Char)
  | 0, _ => malformed
  | n + 1, cs =>
    match cs with
    | [] => malformed
    | '"' :: rest =>
      if !manyLines then .ok ([], rest)
      else if ['"', '"'].isPrefixOf rest then .ok ([], rest.drop 2)
      else (basicFrom manyLines n rest).map fun (inner, rest) => ('"' :: inner, rest)
    | '\\' :: rest =>
      match escape manyLines rest with
      | .error e => .error e
      | .ok (own, rest) =>
        (basicFrom manyLines n rest).map fun (inner, rest) => (own ++ inner, rest)
    | c :: rest =>
      if isIllegal manyLines c then malformed
      else (basicFrom manyLines n rest).map fun (inner, rest) => (c :: inner, rest)

def basic (manyLines : Bool) (cs : List Char) : Parsed (List Char) :=
  basicFrom manyLines (cs.length + 1) cs

/-- One or two quotes just before the closing ones belong to a text of many lines. -/
def withTrailing (quote : Char) (inner rest : List Char) : List Char × List Char :=
  match rest with
  | a :: b :: more =>
    if a = quote && b = quote then (inner ++ [a, b], more)
    else if a = quote then (inner ++ [a], b :: more) else (inner, rest)
  | [a] => if a = quote then (inner ++ [a], []) else (inner, rest)
  | [] => (inner, [])

def dropLineEnd : List Char → List Char
  | '\n' :: cs => cs
  | cs => cs

def toText : Parsed (List Char) → Parsed String
  | .ok (cs, rest) => .ok (String.ofList cs, rest)
  | .error e => .error e

/-- A text of many lines after its opening quotes. -/
def manyLines (quote : Char) (cs : List Char) : Parsed String :=
  let cs := dropLineEnd cs
  let body := if quote = '"' then basic true cs else literal true [quote, quote, quote] cs
  toText (body.map fun (inner, rest) => withTrailing quote inner rest)

/-- Digits after the first one, with single low lines before any of them. -/
def grouped (test : Char → Bool) : List Char → List Char × List Char
  | '_' :: d :: cs =>
    if test d then
      let (ds, rest) := grouped test cs
      (d :: ds, rest)
    else ([], '_' :: d :: cs)
  | d :: cs =>
    if test d then
      let (ds, rest) := grouped test cs
      (d :: ds, rest)
    else ([], d :: cs)
  | [] => ([], [])

/-- Digits, of which the first stands alone. -/
def digits? (test : Char → Bool) : List Char → Option (List Char × List Char)
  | d :: cs =>
    if test d then
      let (ds, rest) := grouped test cs
      some (d :: ds, rest)
    else none
  | [] => none

def isHexDigit (c : Char) : Bool := (Json.hexValue? c).isSome

/-- An integer in a base given by the letter after its leading zero. -/
def based? : List Char → Option (Int × List Char)
  | '0' :: 'x' :: cs => read 16 isHexDigit cs
  | '0' :: 'b' :: cs => read 2 (fun c => c = '0' || c = '1') cs
  | '0' :: 'o' :: cs => read 8 (fun c => '0' ≤ c && c ≤ '7') cs
  | _ => none
where
  read (base : Nat) (test : Char → Bool) (cs : List Char) : Option (Int × List Char) :=
    (digits? test cs).map fun (ds, rest) =>
      ((ds.foldl (fun n d => n * base + (Json.hexValue? d).getD 0) 0 : Nat), rest)

/-- A decimal number, which is an integer if it has neither a fraction nor an exponent. -/
def decimal? (cs : List Char) : Option (Except Unreadable (Value × List Char)) :=
  let (negative, body) := Text.splitSign cs
  (Literal.longest? (digits? Text.isAsciiDigit) body).map fun (l, rest) =>
    (l.value negative).map fun v => (v, rest)

/-- The names of infinities and of no number. -/
def special? (cs : List Char) : Option (Value × List Char) :=
  let (negative, body) := Text.splitSign cs
  let rest := body.drop 3
  if body.take 3 = ['i', 'n', 'f'] then some (.float (.infinite negative), rest)
  else if body.take 3 = ['n', 'a', 'n'] then some (.float .nan, rest)
  else none

end CodeAudit.Toml
