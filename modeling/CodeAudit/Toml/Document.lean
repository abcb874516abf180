import CodeAudit.Text.Lines
import CodeAudit.Toml.Value
namespace CodeAudit.Toml

/-- A document part way through: its tables, what is known of them, the tables that dotted keys have
opened since the last header, and the header. -/
structure Document where
  table : Table := []
  marks : Marks := []
  pending : List Key := []
  header : Key := []

namespace Document

/-- At a header the tables that dotted keys opened become closed to headers. -/
def settle (d : Document) : Document :=
  { d with marks := d.pending.map (·, .opened) ++ d.marks, pending := [] }

/-- A header that opens a table, which may be done once. -/
def openTable (d : Document) (k : Key) : Option Document :=
  let d := d.settle
  if d.marks.isOpened k || d.marks.isFrozen k then none
  else (d.table.open k).map fun t =>
    { d with table := t, marks := (k, .opened) :: d.marks, header := k }

/-- A header that adds a table to a list, with which the earlier ones of the list are forgotten. -/
def extendList (d : Document) (k : Key) : Option Document :=
  let d := d.settle
  if d.marks.isFrozen k then none
  else (d.table.extend k.dropLast (k.getLast?.getD "")).map fun t =>
    { d with table := t, marks := (k, .opened) :: d.marks.forget k, header := k }

/-- The proper beginnings of a key below a header. -/
def openings (header : Key) (k : Key) : List Key :=
  (List.range (k.length - 1)).map fun i => header ++ k.take (i + 1)

/-- A value under a key below the header. -/
def assign (d : Document) (k : Key) (v : Value) : Option Document :=
  let opened := openings d.header k
  let parents := d.header ++ k.dropLast
  if opened.any d.marks.isOpened || d.marks.isFrozen parents then none
  else (d.table.add true parents (k.getLast?.getD "") v).map fun t =>
    { d with
      table := t
      marks := if isContainer v then (d.header ++ k, .frozen) :: d.marks else d.marks
      pending := opened ++ d.pending }

end Document

def closed (mark : List Char) (next : Option Document) (rest : List Char) : Parsed Document :=
  match next with
  | some d => if mark.isPrefixOf rest then .ok (d, rest.drop mark.length) else malformed
  | none => malformed

/-- What a line does, up to a comment after it. -/
def statement (d : Document) : List Char → Parsed Document
  | '[' :: '[' :: cs =>
    match key (cs.dropWhile isGap) with
    | .error e => .error e
    | .ok (k, rest) => closed [']', ']'] (d.extendList k) rest
  | '[' :: cs =>
    match key (cs.dropWhile isGap) with
    | .error e => .error e
    | .ok (k, rest) => closed [']'] (d.openTable k) rest
  | '#' :: cs => .ok (d, '#' :: cs)
  | cs =>
    match pair cs with
    | .error e => .error e
    | .ok ((k, v), rest) => closed [] (d.assign k v) rest

/-- The document after its remaining lines. The first argument bounds their number. -/
def linesFrom : Nat → Document → List Char → Except Unreadable Document
  | 0, d, _ => .ok d
  | n + 1, d, cs =>
    match cs.dropWhile isGap with
    | [] => .ok d
    | '\n' :: rest => linesFrom n d rest
    | cs =>
      match statement d cs with
      | .error e => .error e
      | .ok (d, rest) =>
        match skipComment (rest.dropWhile isGap) with
        | .error e => .error e
        | .ok [] => .ok d
        | .ok ('\n' :: rest) => linesFrom n d rest
        | .ok _ => malformed

/-- Line ends of two characters written as one. -/
def joinLineEnds : List Char → List Char
  | '\r' :: '\n' :: cs => '\n' :: joinLineEnds cs
  | c :: cs => c :: joinLineEnds cs
  | [] => []

/-- The table that a text is. -/
def read (cs : List Char) : Except Unreadable Table :=
  (linesFrom (cs.length + 1) {} (joinLineEnds cs)).map (·.table)

end CodeAudit.Toml
