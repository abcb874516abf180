import CodeAudit.Number.Literal
namespace CodeAudit.Json

inductive Token
  | openList
  | closeList
  | openRecord
  | closeRecord
  | comma
  | colon
  | value (v : Json)
  /-- What is no token, and why a value that begins there cannot be read. -/
  | fault (cause : Unreadable)

def isSpace (c : Char) : Bool := c == ' ' || c == '\t' || c == '\n' || c == '\r'

/-- One ASCII digit or more, and what follows them. -/
def digits? (cs : List Char) : Option (List Char × List Char) :=
  let ds := cs.takeWhile Text.isAsciiDigit
  if ds.isEmpty then none else some (ds, cs.dropWhile Text.isAsciiDigit)

/-- A number as far as it goes. Its own fault comes before that of what follows it. -/
def Token.ofNumber (cs : List Char) : Token :=
  let (negative, body) := match cs with
    | '-' :: cs => (true, cs)
    | cs => (false, cs)
  match Literal.longest? digits? body with
  | none => fault .malformed
  | some (l, rest) =>
    match l.value negative with
    | .error cause => fault cause
    | .ok v => if rest.isEmpty then value v else fault .malformed

/-- The token of a run of characters that is neither text nor punctuation. -/
def Token.ofAtom (cs : List Char) : Token :=
  if cs = "null".toList then value .null
  else if cs = "true".toList then value (.bool true)
  else if cs = "false".toList then value (.bool false)
  else if cs = "NaN".toList then value (.float .nan)
  else if cs = "Infinity".toList then value (.float (.infinite false))
  else if cs = "-Infinity".toList then value (.float (.infinite true))
  else ofNumber cs

/-- What the characters read last belong to. Characters are held last first; `high` is the first
half of a pair that names one character. -/
inductive Mode
  | between
  | atom (read : List Char)
  | text (read : List Char) (high : Option Nat)
  | escape (read : List Char) (high : Option Nat)
  | unicode (read : List Char) (high : Option Nat) (digits : Nat) (code : Nat)

/-- Half a pair stands for no character. -/
def settle (read : List Char) : Option Nat → List Char
  | none => read
  | some _ => '\ufffd' :: read

def hexValue? (c : Char) : Option Nat :=
  if '0' ≤ c && c ≤ '9' then some (c.toNat - 48)
  else if 'a' ≤ c && c ≤ 'f' then some (c.toNat - 87)
  else if 'A' ≤ c && c ≤ 'F' then some (c.toNat - 55)
  else none

def unescaped? : Char → Option Char
  | '"' => some '"'
  | '\\' => some '\\'
  | '/' => some '/'
  | 'b' => some '\x08'
  | 'f' => some '\x0c'
  | 'n' => some '\n'
  | 'r' => some '\r'
  | 't' => some '\t'
  | _ => none

/-- The mode after a code unit given by its four digits. -/
def afterUnit (read : List Char) (high : Option Nat) (code : Nat) : Mode :=
  if 0xD800 ≤ code && code < 0xDC00 then .text (settle read high) (some code)
  else if 0xDC00 ≤ code && code < 0xE000 then
    match high with
    | some h =>
      .text (Char.ofNat (0x10000 + (h - 0xD800) * 0x400 + (code - 0xDC00)) :: read) none
    | none => .text ('\ufffd' :: read) none
  else .text (Char.ofNat code :: settle read high) none

def punctuation? : Char → Option Token
  | '[' => some .openList
  | ']' => some .closeList
  | '\x7b' => some .openRecord
  | '\x7d' => some .closeRecord
  | ',' => some .comma
  | ':' => some .colon
  | _ => none

/-- A character between values: white space, punctuation, or the start of a text or an atom. -/
def begin (c : Char) : Mode × List Token :=
  if isSpace c then (.between, [])
  else if c = '"' then (.text [] none, [])
  else match punctuation? c with
    | some t => (.between, [t])
    | none => (.atom [c], [])

/-- The mode after a character and the tokens that it completes; there is none after a character
that cannot stand where it does. -/
def step : Mode → Char → Option (Mode × List Token)
  | .between, c => some (begin c)
  | .atom read, c =>
    if isSpace c || c = '"' || (punctuation? c).isSome then
      let (mode, tokens) := begin c
      some (mode, .ofAtom read.reverse :: tokens)
    else some (.atom (c :: read), [])
  | .text read high, c =>
    if c = '"' then some (.between, [.value (.text (String.ofList (settle read high).reverse))])
    else if c = '\\' then some (.escape read high, [])
    else if c.toNat < 0x20 then none
    else some (.text (c :: settle read high) none, [])
  | .escape read high, c =>
    if c = 'u' then some (.unicode read high 0 0, [])
    else (unescaped? c).map fun d => (.text (d :: settle read high) none, [])
  | .unicode read high digits code, c =>
    (hexValue? c).map fun d =>
      if digits = 3 then (afterUnit read high (code * 16 + d), [])
      else (.unicode read high (digits + 1) (code * 16 + d), [])

/-- The tokens of a text from a mode on, up to the first character that cannot stand where it
does. -/
def tokensFrom : Mode → List Char → List Token
  | .between, [] => []
  | .atom read, [] => [.ofAtom read.reverse]
  | _, [] => [.fault .malformed]
  | mode, c :: cs =>
    match step mode c with
    | none => [.fault .malformed]
    | some (mode, tokens) => tokens ++ tokensFrom mode cs

def tokens (cs : List Char) : List Token := tokensFrom .between cs

end CodeAudit.Json
