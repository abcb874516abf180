import CodeAudit.Text.Blank
namespace CodeAudit

/-- Where a path starts: where the reader is, at the root, or at the root that two slashes name. -/
inductive Anchor
  | relative
  | root
  | doubleRoot
  deriving DecidableEq, Repr

/-- A path as its start and its names. No name is empty, a single dot, or holds a slash. -/
structure Path where
  anchor : Anchor
  names : List String
  deriving DecidableEq, Repr

namespace Path

/-- The names of a path's text. -/
def namesOf (cs : List Char) : List String :=
  ((Text.splitAt '/' cs).map String.ofList).filter fun n => n ≠ "" && n ≠ "."

def anchorOf : List Char → Anchor
  | '/' :: '/' :: '/' :: _ => .root
  | '/' :: '/' :: _ => .doubleRoot
  | '/' :: _ => .root
  | _ => .relative

def ofText (s : String) : Path := ⟨anchorOf s.toList, namesOf s.toList⟩

def isAbsolute (p : Path) : Bool := p.anchor != .relative

/-- The text of a path; a path without names is written as a dot. -/
def text (p : Path) : String :=
  match p.anchor with
  | .relative => if p.names.isEmpty then "." else "/".intercalate p.names
  | .root => "/" ++ "/".intercalate p.names
  | .doubleRoot => "//" ++ "/".intercalate p.names

/-- A path read from another; an absolute one is kept. -/
def join (p q : Path) : Path :=
  match q.anchor with
  | .relative => ⟨p.anchor, p.names ++ q.names⟩
  | _ => q

def child (p : Path) (name : String) : Path := p.join (ofText name)

/-- The last name, if there is one. -/
def name (p : Path) : String := p.names.getLast?.getD ""

/-- The part of a file name from its last dot on, unless the dot begins or ends the name. -/
def suffixOf (name : List Char) : List Char :=
  let tail := (name.reverse.takeWhile (· != '.')).reverse
  if tail.length + 1 < name.length && !tail.isEmpty then '.' :: tail else []

def suffix (p : Path) : String := String.ofList (suffixOf p.name.toList)

/-- The names that remain when each parent step undoes the name before it, last first; at the
root a parent step does nothing. -/
def settleOnto (stack : List String) : List String → List String
  | [] => stack
  | n :: rest => settleOnto (if n = ".." then stack.drop 1 else n :: stack) rest

/-- The names of an absolute path without parent steps. -/
def settled (names : List String) : List String := (settleOnto [] names).reverse

/-- What two lists have in front of them in common. -/
def common : List String → List String → List String
  | a :: as, b :: bs => if a = b then a :: common as bs else []
  | _, _ => []

/-- The way from one place to another: up to their common directory, then down. -/
def route (start goal : List String) : List String :=
  let shared := (common start goal).length
  List.replicate (start.length - shared) ".." ++ goal.drop shared

/-- A file's text as read from a directory: an absolute path is made relative, a relative one has
its backslashes turned. -/
def relativize (directory : Path) (file : String) : String :=
  if file.toList.head? = some '/' then
    (Path.mk .relative (route (settled directory.names) (settled (namesOf file.toList)))).text
  else String.ofList (file.toList.map fun c => if c = '\\' then '/' else c)

end Path
end CodeAudit
