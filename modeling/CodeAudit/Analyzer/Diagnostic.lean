import CodeAudit.Text.Digit
namespace CodeAudit.Diagnostic

/-- A text parted after its first characters, at least one, so that the rest is of a form. The
shortest first part wins. -/
def shortest {α : Type} (form : List Char → Option α) : List Char → Option (List Char × α)
  | [] => none
  | c :: cs =>
    match form cs with
    | some a => some ([c], a)
    | none => (shortest form cs).map fun (first, a) => (c :: first, a)

/-- As `shortest`, but the longest first part wins. -/
def longest {α : Type} (form : List Char → Option α) : List Char → Option (List Char × α)
  | [] => none
  | c :: cs =>
    match longest form cs with
    | some (first, a) => some (c :: first, a)
    | none => (form cs).map fun a => ([c], a)

/-- What follows a fixed text. -/
def after? (start : List Char) (cs : List Char) : Option (List Char) :=
  if start.isPrefixOf cs then some (cs.drop start.length) else none

/-- A run of digits, at least one, and what follows it. -/
def digits? (cs : List Char) : Option (List Char × List Char) :=
  let ds := cs.takeWhile Text.isDecimal
  if ds.isEmpty then none else some (ds, cs.dropWhile Text.isDecimal)

/-- What follows white space, of which there has to be some. -/
def afterBlank? (cs : List Char) : Option (List Char) :=
  if cs.head?.any Text.isBlank then some (cs.dropWhile Text.isBlank) else none

/-- As many blank characters as leave a rest of the form, at least one. -/
def blanksThen {α : Type} (form : List Char → Option α) : List Char → Option α
  | [] => none
  | c :: cs => if Text.isBlank c then (blanksThen form cs).or (form cs) else none

end CodeAudit.Diagnostic
