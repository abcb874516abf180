import CodeAudit.Pattern.Reader
import CodeAudit.Text.Lines
namespace CodeAudit

namespace Pattern

/-- The lines that hold patterns, without white space around them: neither blank lines nor
comments do. -/
def clean (lines : List String) : List String :=
  (lines.map Text.strip).filter fun s => s ≠ "" && s.toList.head? ≠ some '#'

/-- A path for matching: without one slash, or else one dot and slash, in front. -/
def subject : List Char → List Char
  | '/' :: cs => cs
  | '.' :: '/' :: cs => cs
  | cs => cs

/-- A path with its backslashes turned. -/
def turned (path : String) : List Char := path.toList.map fun c => if c = '\\' then '/' else c

/-- The verdict of patterns from the last to the first: a match through a directory stands until
any other match is found. -/
def verdictFrom (pending : Option Bool) (cs : List Char) : List Pattern → Bool
  | [] => pending.getD false
  | p :: earlier =>
    match p.shape.hit? cs with
    | none => verdictFrom pending cs earlier
    | some .directory => verdictFrom (some (pending.getD !p.negated)) cs earlier
    | some .file => !p.negated

/-- Whether the patterns, later ones before earlier ones, pick out a path. -/
def verdict (patterns : List Pattern) (cs : List Char) : Bool :=
  verdictFrom none cs patterns.reverse

/-- Whether the last pattern that matches a path is a positive one. -/
def lastVerdict (patterns : List Pattern) (cs : List Char) : Bool :=
  match patterns.reverse.find? fun p => (p.shape.hit? cs).isSome with
  | some p => !p.negated
  | none => false

end Pattern

/-- What a scan leaves out. -/
structure IgnoreFilter where
  lines : List String
  patterns : List Pattern
  deriving DecidableEq, Repr

namespace IgnoreFilter

def ofLines (lines : List String) : Except Pattern.Refusal IgnoreFilter :=
  let cleaned := Pattern.clean lines
  (Pattern.ofLines cleaned).map (⟨cleaned, ·⟩)

/-- Paths outside the directory are never left out. -/
def ignores (f : IgnoreFilter) (path : String) : Bool :=
  let cs := Pattern.turned path
  if cs.isEmpty || ['.', '.', '/'].isPrefixOf cs then false
  else Pattern.verdict f.patterns (Pattern.subject cs)

end IgnoreFilter

/-- What a scan is restricted to. -/
structure IncludeFilter where
  lines : List String
  patterns : List Pattern
  deriving DecidableEq, Repr

namespace IncludeFilter

/-- Whether a line can only be meant as a path. -/
def isLiteral (line : String) : Bool :=
  !line.toList.any fun c => c = '*' || c = '?' || c = '[' || c = '\x7b' || c = '!'

def ofLines (lines : List String) : Except Pattern.Refusal IncludeFilter :=
  let cleaned := Pattern.clean lines
  (Pattern.ofLines cleaned).map (⟨cleaned, ·⟩)

/-- The filter for some lines; without patterns there is none. -/
def ofLines? (lines : List String) : Except Pattern.Refusal (Option IncludeFilter) :=
  if lines.isEmpty then .ok none
  else (ofLines lines).map fun f => if f.lines.isEmpty then none else some f

def includes (f : IncludeFilter) (path : String) : Bool :=
  let cs := Pattern.turned path
  (f.lines.filter isLiteral).contains (String.ofList cs) ||
    Pattern.lastVerdict f.patterns (Pattern.subject cs)

end IncludeFilter
end CodeAudit
