import CodeAudit.Toml.Temporal
namespace CodeAudit.Toml

abbrev Table := Fields Temporal

abbrev Key := List String

/-- The table changed at a place below it; tables on the way are made where there are none. With
`throughLists` the last item of a list on the way stands for the list. -/
def Table.change (throughLists : Bool) (f : Table → Option Table) : Key → Table → Option Table
  | [], t => f t
  | k :: ks, t =>
    match t.find? k with
    | none => (change throughLists f ks []).map fun inner => t.put k (.record inner)
    | some (.record inner) =>
      (change throughLists f ks inner).map fun inner => t.put k (.record inner)
    | some (.list items) =>
      match throughLists, items.getLast? with
      | true, some (.record inner) =>
        (change throughLists f ks inner).map fun inner =>
          t.put k (.list (items.dropLast ++ [.record inner]))
      | _, _ => none
    | some _ => none

/-- A value under a name that is new in its table. -/
def Table.add (throughLists : Bool) (parents : Key) (name : String) (v : Value) (t : Table) :
    Option Table :=
  t.change throughLists (fun inner =>
    if (inner.find? name).isSome then none else some (inner ++ [(name, v)])) parents

/-- The table with a table at a place. -/
def Table.open (key : Key) (t : Table) : Option Table := t.change true some key

/-- The table with a further empty table in the list at a place. -/
def Table.extend (parents : Key) (name : String) (t : Table) : Option Table :=
  t.change true (fun inner =>
    match inner.find? name with
    | none => some (inner ++ [(name, .list [.record []])])
    | some (.list items) => some (inner.put name (.list (items ++ [.record []])))
    | some _ => none) parents

/-- What is known of a place. -/
inductive Mark
  /-- It is written as one value, and nothing in it may change. -/
  | frozen
  /-- It was opened as a table and may not be opened again. -/
  | opened
  deriving DecidableEq, Repr

/-- Marks of places; a frozen place is frozen with all below it. -/
abbrev Marks := List (Key × Mark)

namespace Marks

def isFrozen (m : Marks) (key : Key) : Bool :=
  m.any fun (k, mark) => mark = .frozen && k.isPrefixOf key

def isOpened (m : Marks) (key : Key) : Bool := m.contains (key, .opened)

/-- The marks without those of a place and of all below it. -/
def forget (m : Marks) (key : Key) : Marks := m.filter fun (k, _) => !key.isPrefixOf k

end Marks
end CodeAudit.Toml
