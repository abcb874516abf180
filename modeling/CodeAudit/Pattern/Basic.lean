import CodeAudit.Text.Blank
namespace CodeAudit

/-- A piece of a pattern, which takes up some characters of a path. -/
inductive Glob
  | literal (c : Char)
  /-- A character other than a slash. -/
  | one
  /-- Any characters other than slashes. -/
  | many
  /-- At least one character, none of them a slash. -/
  | some
  /-- A character in one of the ranges, or in none of them. -/
  | range (negated : Bool) (ranges : List (Char × Char))
  /-- Any directories from the start of the path on. -/
  | above
  /-- Any directories below the one reached. -/
  | between
  deriving DecidableEq, Repr

/-- How a path has to go on after the pieces. -/
inductive Finish
  /-- The path ends, or goes on below a directory. -/
  | whole
  /-- The path goes on, below a directory if that is asked for. -/
  | inside (directory : Bool)
  deriving DecidableEq, Repr

/-- What a pattern looks for. -/
inductive Shape
  /-- Some character that ends no line. -/
  | anything
  /-- A slash, which marks a directory if that is asked for. -/
  | slash (directory : Bool)
  | parts (globs : List Glob) (finish : Finish)
  deriving DecidableEq, Repr

/-- How a pattern matches: by a directory on the way, or otherwise. -/
inductive Hit
  | directory
  | file
  deriving DecidableEq, Repr

structure Pattern where
  negated : Bool
  shape : Shape
  deriving DecidableEq, Repr

namespace Glob

abbrev Continuation := List Char → Option Hit

/-- As many characters that pass the test as the rest allows. -/
def longest (test : Char → Bool) (k : Continuation) : Continuation
  | [] => k []
  | c :: cs => if test c then (longest test k cs).or (k (c :: cs)) else k (c :: cs)

/-- The last slash after which the rest matches, with no line end before it. -/
def lastSlash (k : Continuation) : Continuation
  | [] => none
  | c :: cs =>
    (if c = '\n' then none else lastSlash k cs).or (if c = '/' then k cs else none)

def inRanges (ranges : List (Char × Char)) (c : Char) : Bool :=
  ranges.any fun (low, high) => low ≤ c && c ≤ high

def isInName (c : Char) : Bool := c != '/'

def isInLine (c : Char) : Bool := c != '\n'

/-- The first way in order of preference in which a piece takes up characters and the rest
matches. -/
def take (k : Continuation) : Glob → Continuation
  | literal d, c :: cs => if c = d then k cs else none
  | one, c :: cs => if isInName c then k cs else none
  | many, cs => longest isInName k cs
  | some, c :: cs => if isInName c then longest isInName k cs else none
  | range negated ranges, c :: cs => if inRanges ranges c != negated then k cs else none
  | above, c :: cs => (if isInLine c then lastSlash k cs else none).or (k (c :: cs))
  | above, [] => k []
  | between, '/' :: c :: cs =>
    (if isInLine c then longest isInLine k cs else none).or (k ('/' :: c :: cs))
  | between, cs => k cs
  | _, [] => none

/-- The first way in which pieces match in turn. -/
def takeAll (k : Continuation) : List Glob → Continuation
  | [] => k
  | g :: gs => take (takeAll k gs) g

end Glob

def Finish.hit? : Finish → List Char → Option Hit
  | .whole, '/' :: _ => some .directory
  | .whole, [] => some .file
  | .whole, ['\n'] => some .file
  | .whole, _ => none
  | .inside directory, '/' :: _ => some (if directory then .directory else .file)
  | .inside _, _ => none

/-- How a pattern matches a path, if it does. -/
def Shape.hit? : Shape → List Char → Option Hit
  | anything, cs => if cs.any Glob.isInLine then some .file else none
  | slash directory, cs =>
    if cs.contains '/' then some (if directory then .directory else .file) else none
  | parts globs finish, cs => Glob.takeAll finish.hit? globs cs

end CodeAudit
