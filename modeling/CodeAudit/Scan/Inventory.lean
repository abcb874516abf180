import CodeAudit.Outcome.Local
import CodeAudit.Registry
import CodeAudit.Scan.Ignore
import CodeAudit.Source
namespace CodeAudit

/-- The files of a directory that count. -/
structure Inventory where
  root : Path
  files : List String
  extensions : List String
  scope : Scope
  deriving DecidableEq, Repr

namespace Inventory

def pathText (names : Place) : String := "/".intercalate names

/-- What is met below a directory, put among what is met below others by the directories' names. -/
def insertByName (name : String) (places : List Place) :
    List (String × List Place) → List (String × List Place)
  | [] => [(name, places)]
  | e :: rest =>
    if Text.atMost name.toList e.1.toList then (name, places) :: e :: rest
    else e :: insertByName name places rest

mutual
/-- What a walk meets at and below a place: first what stands in a directory, as it is listed, then
what is below the directories in it, by their names. Only directories that a test lets through are
entered, and no links are followed. -/
def metAt (enters : Place → Bool) (names : Place) : FileTree → List Place
  | .directory entries =>
    if enters names then
      let (here, below) := metIn enters names entries
      here ++ below.flatMap (·.2)
    else []
  | .closed listed => if enters names then listed.map fun n => names ++ [n] else []
  | _ => [names]

/-- What stands in a directory, and what is met below each of the directories in it, in order. -/
def metIn (enters : Place → Bool) (names : Place) :
    List (String × FileTree) → List Place × List (String × List Place)
  | [] => ([], [])
  | (n, t) :: rest =>
    let (here, below) := metIn enters names rest
    if t.isDirectory then (here, insertByName n (metAt enters (names ++ [n]) t) below)
    else (metAt enters (names ++ [n]) t ++ here, below)
end

/-- What a walk meets below a directory. Directories are entered that are not left out, and whose
path the system can be given. -/
def met (ignored : String → Bool) (files : FileTree) (root : Place) : List Place :=
  let enters (names : Place) : Bool := names = [] ||
    !ignored (pathText names ++ "/") && !FileTree.tooLong ⟨.root, root ++ names⟩
  ((files.at? root).map (metAt enters [])).getD []

/-- Whether a name below a directory leads to a file. -/
def leadsToFile (files : FileTree) (root names : Place) : Except Fault Bool :=
  files.isFile ⟨.root, root ++ names⟩ (root ++ names)

/-- Why a walk below a directory does not come to its end, if it does not. -/
def trouble? (ignored : String → Bool) (files : FileTree) (root : Place) : Option Fault :=
  (met ignored files root).findSome? fun names => Fault.of? (leadsToFile files root names)

/-- The files below a directory that are not left out. -/
def filesBelow (ignored : String → Bool) (files : FileTree) (root : Place) : List Place :=
  (met ignored files root).filter fun names =>
    (leadsToFile files root names).toOption = some true && !ignored (pathText names)

/-- The ending of a file's name in small letters. -/
def extension (names : Place) : String := Text.lower (Path.mk .relative names).suffix

def isSource (names : Place) : Bool := sourceExtensions.contains (extension names)

/-- The files that count below a directory. -/
def sources (scope : Scope) (files : FileTree) (root : Place) : List Place :=
  (filesBelow scope.ignore.ignores files root).filter fun names =>
    isSource names && match scope.only with
      | none => true
      | some f => f.includes (pathText names)

def ofScope (scope : Scope) (files : FileTree) (root : Place) : Inventory :=
  let found := sources scope files root
  { root := ⟨.root, root⟩
    files := Registry.sortedDistinct (found.map pathText)
    extensions := Registry.sortedDistinct (found.map extension)
    scope }

def isEmpty (i : Inventory) : Bool := i.files.isEmpty

end Inventory

namespace Host

/-- A path with a tilde in front read from a home directory: the user's own, or that of the user who
is named after the tilde. -/
def expand (h : Host) (p : Path) : Except Fault Path :=
  match p.anchor, p.names with
  | .relative, n :: rest =>
    if n.toList.head? ≠ some '~' then .ok p
    else match if n = "~" then some h.home else h.homes (String.ofList (n.toList.drop 1)) with
      | some home => .ok ⟨home.anchor, home.names ++ rest⟩
      | none => .error (.unscannable p.text)
  | _, _ => .ok p

/-- The place of a directory that can be scanned. -/
def scannable (h : Host) (files : FileTree) (p : Path) : Except Fault Place :=
  (h.expand p).bind fun q =>
    match files.settle (h.place q) with
    | .error _ => .error (.unscannable p.text)
    | .ok place =>
      match files.at? place with
      | some (.directory _) => .ok place
      | _ => .error (.unscannable (Path.mk .root place).text)

/-- What is to be scanned in a directory. -/
def scan (h : Host) (files : FileTree) (p : Path) (exclude only : List String) :
    Except Fault Inventory := do
  let root ← h.scannable files p
  let ignore ← IgnoreFilter.ofDirectory h.wording files root exclude
  let only ← Pattern.faulting h.wording only (IncludeFilter.ofLines? only)
  match Inventory.trouble? ignore.ignores files root with
  | some f => throw f
  | none => return .ofScope ⟨ignore, only⟩ files root

end Host
end CodeAudit
