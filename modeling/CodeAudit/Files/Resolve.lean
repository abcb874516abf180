import CodeAudit.Fault
import CodeAudit.Files.Tree
namespace CodeAudit.FileTree

/-- The most bytes that a name has, and a path that the system is given. -/
def maxName : Nat := 255

def maxPath : Nat := 4095

/-- Why a name that a directory does not have leads nowhere. -/
def missing (name : String) : SystemError :=
  if maxName < name.utf8ByteSize then .nameTooLong else .noEntry

/-- The steps that a link stands for: its names, and what follows its last slash if that is no
name. -/
def linkSteps (target : String) : List String :=
  let last := (Text.splitAt '/' target.toList).getLast?.getD []
  (Path.ofText target).names ++ if last = [] || last = ['.'] then [String.ofList last] else []

/-- Where what a link stands for is read from. -/
def linkStart (target : String) (here : Place) : Place :=
  if (Path.ofText target).isAbsolute then [] else here

/-- The way through a tree from a directory, step by step. What a link stands for is found by
`follow`, from the directory it is in. -/
def walk (follow : Place → List String → Except SystemError Place) (root : FileTree) :
    Place → List String → Except SystemError Place
  | here, [] => .ok here
  | here, n :: rest =>
    match root.at? here with
    | some (.directory entries) =>
      if n = "" ∨ n = "." then walk follow root here rest
      else if n = ".." then walk follow root here.dropLast rest
      else match entries.lookup n with
        | none => .error (missing n)
        | some (.link target) => follow (linkStart target here) (linkSteps target ++ rest)
        | some _ => walk follow root (here ++ [n]) rest
    | some (.closed _) =>
      if n = "" then walk follow root here rest else .error .permissionDenied
    | some _ => .error .notDirectory
    | none => .error .noEntry

/-- As `walk`, through at most so many links. -/
def resolveWithin (root : FileTree) : Nat → Place → List String → Except SystemError Place
  | 0, _, _ => .error .tooManyLinks
  | n + 1, here, rest => walk (resolveWithin root n) root here rest

/-- The most links that are followed on one way. -/
def maxLinks : Nat := 40

/-- The place without links that a place leads to, which has to be there. -/
def resolve (root : FileTree) (place : Place) : Except SystemError Place :=
  resolveWithin root (maxLinks + 1) [] place

/-- Whether a path is longer than one that the system is given may be. -/
def tooLong (path : Path) : Bool := maxPath < path.text.utf8ByteSize

/-- The way through a tree step by step, where a step back or to the same place can be taken from
whatever was reached, a file too. What a link stands for is found by `follow`, from the directory it
is in. Each place on the way is looked at by its whole path. -/
def trace (follow : Place → List String → Except SystemError Place) (root : FileTree) :
    Place → List String → Except SystemError Place
  | here, [] => .ok here
  | here, n :: rest =>
    if n = "" ∨ n = "." then trace follow root here rest
    else if n = ".." then trace follow root here.dropLast rest
    else if tooLong ⟨.root, here ++ [n]⟩ then .error .nameTooLong
    else match root.at? here with
      | some (.directory entries) =>
        match entries.lookup n with
        | none => .error (missing n)
        | some (.link target) =>
          match follow (linkStart target here) (linkSteps target) with
          | .ok there => trace follow root there rest
          | .error e => .error e
        | some _ => trace follow root (here ++ [n]) rest
      | some (.closed _) => .error .permissionDenied
      | some _ => .error .notDirectory
      | none => .error .noEntry

/-- As `trace`, through links that lead through links at most so many times. -/
def traceWithin (root : FileTree) : Nat → Place → List String → Except SystemError Place
  | 0, _, _ => .error .tooManyLinks
  | n + 1, here, rest => trace (traceWithin root n) root here rest

mutual
/-- The number of links in a tree. -/
def links : FileTree → Nat
  | .link _ => 1
  | .directory entries => linksIn entries
  | _ => 0

def linksIn : List (String × FileTree) → Nat
  | [] => 0
  | (_, t) :: rest => links t + linksIn rest
end

/-- The place without links that a place leads to, which has to be there. A way that goes through
more links at once than there are goes through one of them again and again. -/
def settle (root : FileTree) (place : Place) : Except SystemError Place :=
  traceWithin root (root.links + 1) [] place

/-- The place that a place leads to when its last name is not followed, where that can be said. -/
def standing (root : FileTree) (place : Place) : Place :=
  if (root.at? place).isSome then place
  else match root.resolve place.dropLast with
    | .ok parent => parent ++ place.getLast?.toList
    | .error _ => place

/-- What a place leads to. -/
def find (root : FileTree) (place : Place) : Except SystemError FileTree :=
  (root.resolve place).bind fun p =>
    match root.at? p with
    | some t => .ok t
    | none => .error .noEntry

/-- What a path leads to, if that can be said. Some refusals say that it leads nowhere; others are
faults. -/
def look? (root : FileTree) (path : Path) (place : Place) : Except Fault (Option FileTree) :=
  match if tooLong path then .error .nameTooLong else root.find place with
  | .ok t => .ok (some t)
  | .error e =>
    if e.isAbsence then .ok none else .error (.system e (Text.quoted path.text))

/-- Whether a path leads to a file. -/
def isFile (root : FileTree) (path : Path) (place : Place) : Except Fault Bool :=
  (root.look? path place).map fun
    | some (.file _ _) => true
    | some .unreadable => true
    | _ => false

/-- Whether a path leads to something that may be read. -/
def isReadable (root : FileTree) (path : Path) (place : Place) : Except Fault Bool :=
  (root.look? path place).map fun
    | some .unreadable => false
    | some _ => true
    | none => false

/-- The content of a file. -/
def read (root : FileTree) (place : Place) : Except SystemError Text.Bytes :=
  match root.find place with
  | .ok (.file content _) => .ok content
  | .ok .unreadable => .error .permissionDenied
  | .ok _ => .error .isDirectory
  | .error e => .error e

end CodeAudit.FileTree
