import CodeAudit.Fault
import CodeAudit.Host
import CodeAudit.Pattern.Filter
namespace CodeAudit

/-- The first of some lines that is refused as a pattern. -/
def Pattern.refusedLine (lines : List String) : String :=
  ((clean lines).find? fun line => (ofLine line.toList).toOption.isNone).getD ""

/-- The fault that a pattern is refused among some lines. -/
def Pattern.Refusal.fault (wording : Wording) (lines : List String) : Pattern.Refusal → Fault
  | malformed => .badPattern (refusedLine lines)
  | reversedRange => .badRange (wording.range (refusedLine lines))

/-- An answer in which patterns that are refused among some lines are faults. -/
def Pattern.faulting {α : Type} (wording : Wording) (lines : List String) :
    Except Pattern.Refusal α → Except Fault α
  | .ok a => .ok a
  | .error r => .error (r.fault wording lines)

namespace IgnoreFilter

/-- Directories of what was built, stored or fetched, which are never scanned. -/
def builtinDirectories : List String :=
  ["node_modules", "bower_components", "jspm_packages", "vendor", ".yarn", ".pnp", "__pycache__",
   ".venv", "venv", ".tox", ".mypy_cache", ".pytest_cache", ".ruff_cache", "*.egg-info", ".git",
   ".hg", ".svn", "dist", "build", "out", "target", "_build", ".next", ".nuxt", ".svelte-kit",
   ".angular", ".astro", ".docusaurus", ".vite", ".parcel-cache", ".turbo", ".expo", ".vercel",
   ".netlify", ".serverless", ".idea", ".vscode", ".gradle", ".cargo", ".sass-cache", ".cache",
   ".output", "coverage", ".terraform"]

/-- Files with the versions of what a project depends on, which are never scanned. -/
def builtinFiles : List String :=
  ["package-lock.json", "yarn.lock", "pnpm-lock.yaml", "Pipfile.lock", "poetry.lock", "go.sum",
   "Gemfile.lock", "composer.lock"]

def builtinLines : List String := builtinDirectories.map (· ++ "/") ++ builtinFiles

/-- The patterns in a file; a file that cannot be read has none. -/
def fileLines (files : FileTree) (place : Place) : List String :=
  match files.read place with
  | .error _ => []
  | .ok bytes =>
    match Text.decode bytes with
    | .error _ => []
    | .ok cs => Pattern.clean ((Text.splitLines (Text.unifyNewlines cs)).map String.ofList)

/-- The files of which the first that is there is read. -/
def projectFiles : List String := [".gitignore", ".ignore"]

/-- The lines of the first of some files that is there. -/
def firstLines (files : FileTree) (directory : Place) : List String → Except Fault (List String)
  | [] => .ok []
  | n :: rest => do
    let place := directory ++ [n]
    if ← files.isFile ⟨.root, place⟩ place then return fileLines files place
    else firstLines files directory rest

def projectLines (files : FileTree) (directory : Place) : Except Fault (List String) :=
  firstLines files directory projectFiles

def ownLines (files : FileTree) (directory : Place) : List String :=
  fileLines files (directory ++ [".fcvignore"])

/-- The lines for a directory, layer by layer: those that always hold, those asked for, those of
the project, and those meant for this program. -/
def directoryLines (files : FileTree) (directory : Place) (exclude : List String) :
    Except Fault (List String) := do
  let project ← projectLines files directory
  return builtinLines ++ exclude ++ project ++ ownLines files directory

def ofDirectory (wording : Wording) (files : FileTree) (directory : Place) (exclude : List String) :
    Except Fault IgnoreFilter := do
  let lines ← directoryLines files directory exclude
  Pattern.faulting wording lines (ofLines lines)

end IgnoreFilter
end CodeAudit
