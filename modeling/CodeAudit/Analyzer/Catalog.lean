import CodeAudit.Analyzer.Bearer
import CodeAudit.Analyzer.Clippy
import CodeAudit.Analyzer.Eslint
import CodeAudit.Analyzer.GolangciLint
import CodeAudit.Analyzer.Jscpd
import CodeAudit.Analyzer.Knip
import CodeAudit.Analyzer.Mypy
import CodeAudit.Analyzer.Ruff
import CodeAudit.Analyzer.Semgrep
import CodeAudit.Analyzer.Sqlfluff
import CodeAudit.Analyzer.Stylelint
import CodeAudit.Analyzer.Trivy
import CodeAudit.Analyzer.Tsc
import CodeAudit.Analyzer.Typos
import CodeAudit.Analyzer.Vulture
import CodeAudit.Registry
namespace CodeAudit

/-- The analyzers that are known from the start, in the order in which they run. -/
def Registry.builtin : Registry :=
  ⟨[.ruff, .mypy, .vulture, .eslint, .tsc, .stylelint, .semgrep, .bearer, .golangciLint, .clippy,
    .sqlfluff, .trivy, .jscpd, .knip, .typos]⟩

namespace Listing

def title : String := "Available tools"

/-- The extensions of an analyzer in order. -/
def extensions (a : Analyzer) : String := ", ".intercalate (Registry.sortedDistinct a.extensions)

def header : List String := ["Tool", "Extensions", "Opt-in", "Install"]

def row (a : Analyzer) : List String :=
  [a.name, extensions a, if a.optIn then "yes" else "", a.installHint]

/-- A table of the analyzers, its header first. -/
def rows (r : Registry) : List (List String) := header :: r.analyzers.map row

end Listing
end CodeAudit
