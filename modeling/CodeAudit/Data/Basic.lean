import CodeAudit.Number.Double
namespace CodeAudit

/-- A value of a document, with whatever scalars `μ` a format has besides the common ones. -/
inductive Data (μ : Type)
  | null
  | bool (b : Bool)
  | int (n : Int)
  | float (x : Double)
  | text (s : String)
  | list (items : List (Data μ))
  | record (fields : List (String × Data μ))
  | other (value : μ)
  deriving Repr, Inhabited

/-- Why a text is no document. -/
inductive Unreadable
  | malformed
  | integerTooLong (digits : Nat)
  deriving DecidableEq, Repr

abbrev Fields (μ : Type) := List (String × Data μ)

/-- A JSON document. -/
abbrev Json := Data Empty

namespace Fields

variable {μ : Type}

def find? (name : String) (fields : Fields μ) : Option (Data μ) := fields.lookup name

/-- The value of a field, and `null` for a field that is not there. -/
def get (fields : Fields μ) (name : String) : Data μ := (fields.lookup name).getD .null

/-- A field written again keeps its place and takes the new value. -/
def put (name : String) (value : Data μ) : Fields μ → Fields μ
  | [] => [(name, value)]
  | (n, v) :: rest => if n = name then (n, value) :: rest else (n, v) :: put name value rest

def putAll (fields later : Fields μ) : Fields μ :=
  later.foldl (fun fs (n, v) => put n v fs) fields

def names (fields : Fields μ) : List String := fields.map (·.1)

theorem lookup_put (name other : String) (value : Data μ) (fields : Fields μ) :
    (put name value fields).lookup other =
      if other = name then some value else fields.lookup other := by
  induction fields with
  | nil =>
    by_cases h : other = name
    · simp [put, h]
    · simp [put, h, List.lookup_cons, beq_eq_false_iff_ne.2 h]
  | cons f rest ih =>
    obtain ⟨n, v⟩ := f
    by_cases hn : n = name
    · by_cases h : other = name
      · simp [put, hn, h]
      · simp [put, hn, h, List.lookup_cons, beq_eq_false_iff_ne.2 h]
    · by_cases h : other = n
      · subst h
        simp [put, hn]
      · simp [put, hn, List.lookup_cons, beq_eq_false_iff_ne.2 h, ih]

end Fields

namespace Data

variable {μ : Type}

/-- What counts as a value in a choice between alternatives. -/
def truthy : Data μ → Bool
  | null => false
  | bool b => b
  | int n => n != 0
  | float x => match x with
    | .finite _ m _ => m != 0
    | _ => true
  | text s => !s.isEmpty
  | list items => !items.isEmpty
  | record fields => !fields.isEmpty
  | other _ => true

/-- The first value if it counts, else the second. -/
def orElse (first second : Data μ) : Data μ := if first.truthy then first else second

/-- The fields of a record; nothing else has any. -/
def fields : Data μ → Fields μ
  | record fields => fields
  | _ => []

/-- The records among the items of a list; nothing else has any. -/
def records : Data μ → List (Fields μ)
  | list items => items.filterMap fun
    | record fields => some fields
    | _ => none
  | _ => []

/-- Equality with a text, which only a text has. -/
def isText (s : String) : Data μ → Bool
  | text t => t == s
  | _ => false

/-- Equality with a whole number, which numbers and truth values may have. -/
def isInt (n : Int) : Data μ → Bool
  | bool b => (if b then 1 else 0) == n
  | int m => m == n
  | float x => x.toInt? == some n
  | _ => false

mutual
/-- The same document, read as one of a format with more scalars. -/
def embed {ν : Type} : Data Empty → Data ν
  | null => null
  | bool b => bool b
  | int n => int n
  | float x => float x
  | text s => text s
  | list items => list (embedItems items)
  | record fields => record (embedFields fields)

def embedItems {ν : Type} : List (Data Empty) → List (Data ν)
  | [] => []
  | x :: xs => embed x :: embedItems xs

def embedFields {ν : Type} : Fields Empty → Fields ν
  | [] => []
  | (n, x) :: xs => (n, embed x) :: embedFields xs
end

end Data
end CodeAudit
