import CodeAudit.Analyzer.Basic
import CodeAudit.Text.Order
namespace CodeAudit

/-- Analyzers in the order in which they run, no two of one name. -/
structure Registry where
  analyzers : List Analyzer := []

namespace Registry

def names (r : Registry) : List String := r.analyzers.map (·.name)

def get? (r : Registry) (name : String) : Option Analyzer := r.analyzers.find? (·.name == name)

def contains (r : Registry) (name : String) : Bool := r.names.contains name

/-- A further analyzer after the others; its name has to be new. -/
def register (r : Registry) (a : Analyzer) : Except Fault Registry :=
  if r.contains a.name then .error (.alreadyRegistered a.name)
  else .ok ⟨r.analyzers ++ [a]⟩

def registerAll (r : Registry) : List Analyzer → Except Fault Registry
  | [] => .ok r
  | a :: rest => (r.register a).bind (registerAll · rest)

def ofList (as : List Analyzer) : Except Fault Registry := registerAll {} as

/-- Words in order of their characters, each once. -/
def sortedDistinct (words : List String) : List String :=
  words.eraseDups.mergeSort fun a b => Text.atMost a.toList b.toList

/-- The analyzers for files of some endings: those asked for by name, or else all that do not wait
to be asked. -/
def select (r : Registry) (extensions requested : List String) :
    Except Fault (List Analyzer) :=
  let wanted := requested.map Text.lower
  let unknown := sortedDistinct (wanted.filter (!r.contains ·))
  if unknown ≠ [] then .error (.unknownTools unknown r.names)
  else .ok (r.analyzers.filter fun a =>
    a.isRelevant extensions && if wanted.isEmpty then !a.optIn else wanted.contains a.name)

end Registry
end CodeAudit
