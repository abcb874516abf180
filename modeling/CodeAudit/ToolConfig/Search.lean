import CodeAudit.Host
import CodeAudit.ToolConfig
namespace CodeAudit

namespace ToolConfig

/-- The names of an analyzer's configuration in the directory it looks at, in order of choice. -/
def localNames : String → List String
  | "ruff" => ["ruff.toml", ".ruff.toml", "pyproject.toml"]
  | "eslint" =>
    ["eslint.config.js", "eslint.config.mjs", "eslint.config.cjs", ".eslintrc.json",
     ".eslintrc.js", ".eslintrc.yml", ".eslintrc.yaml", ".eslintrc"]
  | "semgrep" => [".semgrep.yml", ".semgrep.yaml", ".semgrep"]
  | "golangci-lint" => [".golangci.yml", ".golangci.yaml", ".golangci.toml", ".golangci.json"]
  | "jscpd" => [".jscpd.json"]
  | "trivy" => ["trivy.yaml", ".trivy.yaml"]
  | "mypy" => ["mypy.ini", ".mypy.ini", "setup.cfg", "pyproject.toml"]
  | "typos" => ["typos.toml", ".typos.toml", "_typos.toml"]
  | "tsc" => ["tsconfig.json"]
  | "stylelint" =>
    [".stylelintrc", ".stylelintrc.json", ".stylelintrc.yml", ".stylelintrc.yaml",
     ".stylelintrc.js", "stylelint.config.js", "stylelint.config.mjs", "stylelint.config.cjs"]
  | "bearer" => [".bearer.yml", "bearer.yml"]
  | _ => []

/-- The name of an analyzer's default; for semgrep it is a directory of rules. -/
def defaultName? : String → Option String
  | "ruff" => some "ruff.toml"
  | "eslint" => some "eslint.config.mjs"
  | "semgrep" => some "semgrep"
  | "mypy" => some "mypy.ini"
  | _ => none

/-- Where an analyzer's configuration is looked for, in order: in the target, then the default in
the user's directory and the one that comes with the program. -/
def candidates (tool : String) (target user bundled : Path) : List (Tier × Path) :=
  (localNames tool).map (fun n => (.target, target.child n)) ++
    match defaultName? tool with
    | none => []
    | some n => [(.userDefault, user.child n), (.bundledDefault, bundled.child n)]

/-- The first candidate that can be read. -/
def search (readable : Path → Bool) (tool : String) (target user bundled : Path) : ToolConfig :=
  match (candidates tool target user bundled).find? (readable ·.2) with
  | some (tier, path) => ⟨some path, tier⟩
  | none => {}

end ToolConfig

namespace Host

/-- The directory of a user's own defaults. -/
def userDefaults (h : Host) : Path :=
  ⟨h.home.anchor, h.home.names ++ [".config", "fast-cv", "defaults"]⟩

/-- The configuration of an analyzer for a directory. The search ends at the first path that can be
read, or of which that cannot be said. -/
def configOf (h : Host) (files : FileTree) (tool : String) (target : Path)
    (user bundled : Option Path) : Except Fault ToolConfig :=
  let answer (p : Path) : Except Fault Bool := files.isReadable p (h.place p)
  let found := ToolConfig.search (fun p => (answer p).toOption.getD true) tool target
    (user.getD h.userDefaults) (bundled.getD h.bundled)
  match found.path with
  | none => .ok found
  | some p => (answer p).map fun _ => found

end Host
end CodeAudit
