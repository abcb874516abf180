import CodeAudit.Path.Basic
import CodeAudit.Text.Utf8
namespace CodeAudit

/-- What a name in a directory stands for. -/
inductive FileTree
  | file (content : Text.Bytes) (executable : Bool)
  | directory (entries : List (String × FileTree))
  | link (target : String)
  /-- A file that may not be read. -/
  | unreadable
  /-- A directory that may be listed but not searched, with the names in it that stand for no
  directories. -/
  | closed (names : List String)
  deriving Repr, Inhabited

/-- A place in a tree: the names from its root on. -/
abbrev Place := List String

namespace FileTree

/-- What a name in a directory stands for; nothing else has names in it. -/
def entry? (name : String) : FileTree → Option FileTree
  | directory entries => entries.lookup name
  | _ => none

/-- What stands at a place, without following links. -/
def at? : Place → FileTree → Option FileTree
  | [], t => some t
  | n :: ns, t => (t.entry? n).bind (at? ns)

def isDirectory : FileTree → Bool
  | directory _ => true
  | closed _ => true
  | _ => false

/-- The entries with one name given anew, in its place or at the end. -/
def withEntry (name : String) (new : FileTree) :
    List (String × FileTree) → List (String × FileTree)
  | [] => [(name, new)]
  | (n, t) :: rest => if n = name then (name, new) :: rest else (n, t) :: withEntry name new rest

def withoutEntry (name : String) (entries : List (String × FileTree)) :
    List (String × FileTree) :=
  entries.filter (·.1 ≠ name)

/-- The tree with something else at a place, or with nothing there. Places below what is no
directory do not change. -/
def set (new : Option FileTree) : Place → FileTree → FileTree
  | [], t => new.getD t
  | [n], directory entries =>
    directory (match new with
      | some t => withEntry n t entries
      | none => withoutEntry n entries)
  | n :: m :: ns, directory entries =>
    directory (entries.map fun (k, t) => if k = n then (k, set new (m :: ns) t) else (k, t))
  | _ :: _, t => t

/-- The tree with something at a place, and directories on the way to it. -/
def plant (new : FileTree) : Place → FileTree → FileTree
  | [], _ => new
  | n :: ns, directory entries =>
    directory (withEntry n (plant new ns ((entries.lookup n).getD (directory []))) entries)
  | _ :: _, t => t

theorem lookup_withEntry (name other : String) (new : FileTree)
    (entries : List (String × FileTree)) :
    (withEntry name new entries).lookup other =
      if other = name then some new else entries.lookup other := by
  induction entries with
  | nil =>
    by_cases h : other = name
    · simp [withEntry, h]
    · simp [withEntry, h, List.lookup_cons, beq_eq_false_iff_ne.2 h]
  | cons e rest ih =>
    obtain ⟨n, t⟩ := e
    by_cases hn : n = name
    · by_cases h : other = name
      · simp [withEntry, hn, h]
      · simp [withEntry, hn, List.lookup_cons, beq_eq_false_iff_ne.2 h, h]
    · by_cases h : other = n
      · subst h
        simp [withEntry, hn]
      · simp [withEntry, hn, List.lookup_cons, beq_eq_false_iff_ne.2 h, ih]

theorem lookup_withoutEntry (name other : String) (entries : List (String × FileTree)) :
    (withoutEntry name entries).lookup other =
      if other = name then none else entries.lookup other := by
  induction entries with
  | nil => simp [withoutEntry]
  | cons e rest ih =>
    obtain ⟨n, t⟩ := e
    rw [withoutEntry] at ih ⊢
    by_cases hn : n = name
    · subst hn
      by_cases h : other = n
      · simpa [h] using ih
      · simpa [List.lookup_cons, beq_eq_false_iff_ne.2 h, h] using ih
    · by_cases h : other = n
      · subst h
        simp [hn]
      · simpa [hn, List.lookup_cons, beq_eq_false_iff_ne.2 h] using ih

end FileTree
end CodeAudit
