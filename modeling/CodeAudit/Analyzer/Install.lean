import CodeAudit.Registry
import CodeAudit.Text.Words
namespace CodeAudit

namespace Install

/-- Whether a text is an alternative between brackets, on one line but for what follows it. -/
def isAlternative (cs : List Char) : Bool :=
  let body := Text.trimEnd (cs.drop 4)
  "(or:".toList.isPrefixOf cs && body.getLast? == some ')' && !body.dropLast.contains '\n'

/-- A hint up to the alternative that ends it, if there is one. -/
def withoutAlternative : List Char → List Char
  | [] => []
  | c :: cs => if isAlternative (c :: cs) then [] else c :: withoutAlternative cs

/-- The command that a hint tells to run; a chain of commands is left to a shell. -/
def argv (hint : String) : Except Text.WordFault (List String) :=
  let command := Text.trim (withoutAlternative hint.toList)
  if command.contains '|' then .ok ["bash", "-c", String.ofList command]
  else Text.words (String.ofList command)

/-- What to do about an analyzer that is not there. -/
def advice (a : Analyzer) : List String :=
  ["  " ++ a.name ++ " (needed for " ++
     ", ".intercalate (Registry.sortedDistinct a.extensions) ++ " files)",
   "    Install: " ++ a.installHint,
   ""]

/-- What to do about analyzers that are not there. -/
def message (missing : List Analyzer) : String :=
  "\n".intercalate (["[PRECHECK FAILED] Missing tools for detected languages:", ""] ++
    missing.flatMap advice ++
    ["Run with --auto-install to install missing tools automatically."])

end Install
end CodeAudit
