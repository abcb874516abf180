import CodeAudit.Toml.Scalar
import CodeAudit.Toml.Table
namespace CodeAudit.Toml

def isBareKeyChar (c : Char) : Bool :=
  Text.isAsciiDigit c || ('a' ≤ c && c ≤ 'z') || ('A' ≤ c && c ≤ 'Z') || c = '-' || c = '_'

/-- What follows a comment; what does not start with one stays. -/
def skipComment : List Char → Except Unreadable (List Char)
  | '#' :: cs =>
    if (cs.takeWhile (· != '\n')).any (isIllegal false) then malformed
    else .ok (cs.dropWhile (· != '\n'))
  | cs => .ok cs

/-- What follows gaps, line ends and comments. The first argument bounds the number of lines. -/
def skipLinesFrom : Nat → List Char → Except Unreadable (List Char)
  | 0, cs => .ok cs
  | n + 1, cs =>
    match skipComment (cs.dropWhile isGapOrLine) with
    | .error e => .error e
    | .ok rest => if rest.length < cs.length then skipLinesFrom n rest else .ok rest

def skipLines (cs : List Char) : Except Unreadable (List Char) := skipLinesFrom (cs.length + 1) cs

def keyPart : List Char → Parsed String
  | '\'' :: cs => toText (literal false ['\''] cs)
  | '"' :: cs => toText (basic false cs)
  | cs =>
    let bare := cs.takeWhile isBareKeyChar
    if bare.isEmpty then malformed else .ok (String.ofList bare, cs.dropWhile isBareKeyChar)

/-- The parts of a key between points. The first argument bounds their number. -/
def keyFrom : Nat → List Char → Parsed Key
  | 0, _ => malformed
  | n + 1, cs =>
    match keyPart cs with
    | .error e => .error e
    | .ok (part, rest) =>
      match rest.dropWhile isGap with
      | '.' :: rest =>
        (keyFrom n (rest.dropWhile isGap)).map fun (parts, rest) => (part :: parts, rest)
      | rest => .ok ([part], rest)

def key (cs : List Char) : Parsed Key := keyFrom (cs.length + 1) cs

/-- A value that holds no others. -/
def atom (cs : List Char) : Parsed Value :=
  let named (name : String) (v : Value) : Option (Value × List Char) :=
    if name.toList.isPrefixOf cs then some (v, cs.drop name.length) else none
  match (named "true" (.bool true)).or (named "false" (.bool false)) with
  | some answer => .ok answer
  | none =>
    match temporal? cs with
    | some answer => answer.map fun (t, rest) => (.other t, rest)
    | none =>
      match based? cs with
      | some (n, rest) => .ok (.int n, rest)
      | none =>
        match decimal? cs with
        | some answer => answer
        | none =>
          match special? cs with
          | some answer => .ok answer
          | none => malformed

def asValue (answer : Parsed String) : Parsed Value :=
  answer.map fun (s, rest) => (.text s, rest)

def isContainer : Value → Bool
  | .list _ => true
  | .record _ => true
  | _ => false

/-- A part of a key of an inline table under a value that was written as one. -/
def addInline (t : Table) (marks : Marks) (k : Key) (v : Value) : Option (Table × Marks) :=
  if marks.isFrozen k then none
  else (t.add false k.dropLast (k.getLast?.getD "") v).map fun t =>
    (t, if isContainer v then (k, .frozen) :: marks else marks)

mutual
/-- A value. The first argument of these functions bounds the steps they take. -/
def valueFrom : Nat → List Char → Parsed Value
  | 0, _ => malformed
  | n + 1, cs =>
    match cs with
    | '"' :: '"' :: '"' :: rest => asValue (manyLines '"' rest)
    | '"' :: rest => asValue (toText (basic false rest))
    | '\'' :: '\'' :: '\'' :: rest => asValue (manyLines '\'' rest)
    | '\'' :: rest => asValue (toText (literal false ['\''] rest))
    | '[' :: rest =>
      match skipLines rest with
      | .error e => .error e
      | .ok (']' :: rest) => .ok (.list [], rest)
      | .ok rest => itemsFrom n [] rest
    | '\x7b' :: rest =>
      match rest.dropWhile isGap with
      | '\x7d' :: rest => .ok (.record [], rest)
      | rest => pairsFrom n [] [] rest
    | cs => atom cs

/-- The items of a list from one on, after those before it, last first. -/
def itemsFrom : Nat → List Value → List Char → Parsed Value
  | 0, _, _ => malformed
  | n + 1, done, cs =>
    match valueFrom n cs with
    | .error e => .error e
    | .ok (v, rest) =>
      match skipLines rest with
      | .error e => .error e
      | .ok (']' :: rest) => .ok (.list (v :: done).reverse, rest)
      | .ok (',' :: rest) =>
        match skipLines rest with
        | .error e => .error e
        | .ok (']' :: rest) => .ok (.list (v :: done).reverse, rest)
        | .ok rest => itemsFrom n (v :: done) rest
      | .ok _ => malformed

/-- The pairs of an inline table from one on. -/
def pairsFrom : Nat → Table → Marks → List Char → Parsed Value
  | 0, _, _, _ => malformed
  | n + 1, done, marks, cs =>
    match key cs with
    | .error e => .error e
    | .ok (k, rest) =>
      match rest with
      | '=' :: rest =>
        match valueFrom n (rest.dropWhile isGap) with
        | .error e => .error e
        | .ok (v, rest) =>
          match addInline done marks k v with
          | none => malformed
          | some (done, marks) =>
            match rest.dropWhile isGap with
            | '\x7d' :: rest => .ok (.record done, rest)
            | ',' :: rest => pairsFrom n done marks (rest.dropWhile isGap)
            | _ => malformed
      | _ => malformed
end

/-- The value at the front of a text, nested to any depth: the interpreter's limit on recursion is
left out. -/
def value (cs : List Char) : Parsed Value := valueFrom (2 * cs.length + 2) cs

/-- A key, an equals sign and a value. -/
def pair (cs : List Char) : Parsed (Key × Value) :=
  match key cs with
  | .error e => .error e
  | .ok (k, '=' :: rest) =>
    (value (rest.dropWhile isGap)).map fun (v, rest) => ((k, v), rest)
  | .ok _ => malformed

end CodeAudit.Toml
