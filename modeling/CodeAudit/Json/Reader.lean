import CodeAudit.Json.Token
namespace CodeAudit.Json

/-- A container part way through: its items so far, last first, or its fields and the name that
waits for a value. -/
inductive Frame
  | list (done : List Json)
  | record (done : Fields Empty) (name : String)

/-- What may come next. -/
inductive Place
  /-- A value. -/
  | value
  /-- A value or the end of an empty list. -/
  | firstItem
  /-- A name. -/
  | name (done : Fields Empty)
  /-- A name or the end of an empty record. -/
  | firstName
  /-- The colon after a name. -/
  | colon (done : Fields Empty) (name : String)
  /-- What follows a whole value. -/
  | after (v : Json)

abbrev State := Place × List Frame

/-- What a token does. A name given again keeps its place and takes the later value; a token that
cannot stand where it does is malformed, whatever its own fault. -/
def advance : State → Token → Except Unreadable State
  | (.value, k), .value v => .ok (.after v, k)
  | (.value, k), .openList => .ok (.firstItem, k)
  | (.value, k), .openRecord => .ok (.firstName, k)
  | (.value, _), .fault cause => .error cause
  | (.firstItem, k), .closeList => .ok (.after (.list []), k)
  | (.firstItem, k), .value v => .ok (.after v, .list [] :: k)
  | (.firstItem, k), .openList => .ok (.firstItem, .list [] :: k)
  | (.firstItem, k), .openRecord => .ok (.firstName, .list [] :: k)
  | (.firstItem, _), .fault cause => .error cause
  | (.firstName, k), .closeRecord => .ok (.after (.record []), k)
  | (.firstName, k), .value (.text n) => .ok (.colon [] n, k)
  | (.name done, k), .value (.text n) => .ok (.colon done n, k)
  | (.colon done n, k), .colon => .ok (.value, .record done n :: k)
  | (.after v, .list done :: k), .comma => .ok (.value, .list (v :: done) :: k)
  | (.after v, .list done :: k), .closeList => .ok (.after (.list (v :: done).reverse), k)
  | (.after v, .record done n :: k), .comma => .ok (.name (Fields.put n v done), k)
  | (.after v, .record done n :: k), .closeRecord =>
    .ok (.after (.record (Fields.put n v done)), k)
  | _, _ => .error .malformed

/-- The state after some tokens, or the first fault among them. -/
def run : State → List Token → Except Unreadable State
  | s, [] => .ok s
  | s, t :: ts =>
    match advance s t with
    | .ok s => run s ts
    | .error cause => .error cause

/-- The document that a text is, with white space around it. Documents are nested to any depth: the
interpreter's limit on recursion is left out. -/
def read (cs : List Char) : Except Unreadable Json :=
  match run (.value, []) (tokens cs) with
  | .ok (.after v, []) => .ok v
  | .ok _ => .error .malformed
  | .error cause => .error cause

def parse (s : String) : Except Unreadable Json := read s.toList

end CodeAudit.Json
