import CodeAudit.Text.Blank
namespace CodeAudit.Text

/-- Why a line does not split into words. -/
inductive WordFault
  | openQuote
  | openEscape
  deriving DecidableEq, Repr

/-- Inside or outside of which quotes a character stands. -/
inductive Quoting
  | plain
  | single
  | double
  | escaped
  | escapedInDouble

def isWordGap (c : Char) : Bool := c == ' ' || c == '\t' || c == '\r' || c == '\n'

/-- The words of a line from a position inside a word on. `word` is the word so far, last
character first, and is absent between words. -/
def wordsFrom : Quoting → Option (List Char) → List Char → Except WordFault (List (List Char))
  | .plain, word, [] => .ok (word.toList.map List.reverse)
  | .single, _, [] => .error .openQuote
  | .double, _, [] => .error .openQuote
  | .escaped, _, [] => .error .openEscape
  | .escapedInDouble, _, [] => .error .openEscape
  | .plain, word, c :: cs =>
    if isWordGap c then
      match word with
      | none => wordsFrom .plain none cs
      | some w => (wordsFrom .plain none cs).map (w.reverse :: ·)
    else
      let w := word.getD []
      if c = '\'' then wordsFrom .single (some w) cs
      else if c = '"' then wordsFrom .double (some w) cs
      else if c = '\\' then wordsFrom .escaped (some w) cs
      else wordsFrom .plain (some (c :: w)) cs
  | .single, word, c :: cs =>
    if c = '\'' then wordsFrom .plain word cs
    else wordsFrom .single (word.map (c :: ·)) cs
  | .double, word, c :: cs =>
    if c = '"' then wordsFrom .plain word cs
    else if c = '\\' then wordsFrom .escapedInDouble word cs
    else wordsFrom .double (word.map (c :: ·)) cs
  | .escaped, word, c :: cs => wordsFrom .plain (word.map (c :: ·)) cs
  | .escapedInDouble, word, c :: cs =>
    let kept := if c = '"' || c = '\\' then [c] else [c, '\\']
    wordsFrom .double (word.map (kept ++ ·)) cs

/-- The words of a command line; quotes and backslashes keep white space inside a word. -/
def words (s : String) : Except WordFault (List String) :=
  (wordsFrom .plain none s.toList).map (·.map String.ofList)

end CodeAudit.Text
