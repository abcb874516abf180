import CodeAudit.Files.Resolve
import CodeAudit.Outcome
import CodeAudit.Scan.Ignore
namespace CodeAudit.LineCheck

def tool : String := "line-check"

/-- The number of lines of a file, if it can be read. -/
def count? (files : FileTree) (place : Place) : Option Nat :=
  match files.read place with
  | .ok bytes => some (Text.splitLines (Text.unifyNewlines (Text.decodeLossy bytes))).length
  | .error _ => none

def finding (file : String) (lines : Nat) (limit : Int) : Finding :=
  { file
    line := lines
    tag := Tag.refactor.text
    rule := "max-lines"
    message := "File has " ++ Nat.repr lines ++ " lines (limit: " ++ integerText limit ++
      "). Consider splitting into smaller modules." }

/-- The finding for a file that is longer than a limit. -/
def finding? (files : FileTree) (root : Place) (limit : Int) (file : String) : Option Finding :=
  match count? files ((Path.mk .root root).child file).names with
  | some n => if limit < n then some (finding file n limit) else none
  | none => none

/-- The files that are not exempt. -/
def subject (omitted : Option IgnoreFilter) (file : String) : Bool :=
  match omitted with
  | some f => !f.ignores file
  | none => true

/-- What comes of holding files against a limit; without a positive limit nothing is looked at. -/
def check (tree : FileTree) (root : Place) (files : List String) (limit : Int)
    (exempt : List String) : Except Pattern.Refusal Outcome := do
  if limit ≤ 0 then return { tool }
  else
    let omitted ← if exempt.isEmpty then pure none else (IgnoreFilter.ofLines exempt).map some
    let checked := files.filter (subject omitted)
    return { tool, findings := checked.filterMap (finding? tree root limit) }

end CodeAudit.LineCheck
