import CodeAudit.Pattern.Basic
namespace CodeAudit.Pattern

/-- Why a line is no pattern. -/
inductive Refusal
  | malformed
  | reversedRange
  deriving DecidableEq, Repr

/-- What stops the reading of a segment. -/
inductive Stop
  /-- A bracket that is not closed, with which a pattern matches nothing. -/
  | openBracket
  /-- A backslash with nothing after it. -/
  | openEscape
  deriving DecidableEq, Repr

/-- The ranges between brackets; a hyphen at an end stands for itself. -/
def rangesOf : List Char → List (Char × Char)
  | c :: '-' :: d :: cs => (c, d) :: rangesOf cs
  | c :: cs => (c, c) :: rangesOf cs
  | [] => []

/-- What stands before the next closing bracket, and what follows it. -/
def splitBracket : List Char → Option (List Char × List Char)
  | [] => none
  | ']' :: cs => some ([], cs)
  | c :: cs => (splitBracket cs).map fun (inner, rest) => (c :: inner, rest)

/-- A bracket expression after its opening bracket, and what follows it. A mark of negation comes
first, and a closing bracket in the first place stands for itself. -/
def bracket (cs : List Char) : Option (Glob × List Char) :=
  let (negated, body) := match cs with
    | '!' :: body => (true, body)
    | '^' :: body => (true, body)
    | body => (false, body)
  let split : Option (List Char × List Char) := match body with
    | ']' :: more => (splitBracket more).map fun (inner, rest) => (']' :: inner, rest)
    | body => splitBracket body
  split.map fun (inner, rest) => (.range negated (rangesOf inner), rest)

/-- The pieces of a segment. The first argument bounds the number of pieces. -/
def globsFrom : Nat → List Char → Except Stop (List Glob)
  | 0, _ => .ok []
  | _, [] => .ok []
  | _, ['\\'] => .error .openEscape
  | n + 1, '\\' :: c :: cs => (globsFrom n cs).map (.literal c :: ·)
  | n + 1, '*' :: cs => (globsFrom n cs).map (.many :: ·)
  | n + 1, '?' :: cs => (globsFrom n cs).map (.one :: ·)
  | n + 1, '[' :: cs =>
    match bracket cs with
    | none => .error .openBracket
    | some (glob, rest) => (globsFrom n rest).map (glob :: ·)
  | n + 1, c :: cs => (globsFrom n cs).map (.literal c :: ·)

/-- The pieces of a segment; a segment that is an asterisk stands for a name that is not empty. -/
def segment (cs : List Char) : Except Stop (List Glob) :=
  if cs = ['*'] then .ok [.some] else globsFrom cs.length cs

def deep : List Char := ['*', '*']

/-- Runs of double asterisks made one. -/
def collapse : List (List Char) → List (List Char)
  | [] => []
  | s :: rest => if s = deep && rest.head? = some deep then collapse rest else s :: collapse rest

/-- The segments of a pattern in their final form: anchored, or below any directories, and with
double asterisks for what lies below a directory. -/
def settle (segments : List (List Char)) : List (List Char) :=
  let anchored := match segments with
    | [] :: rest => rest
    | [s] => if s = deep then [s] else [deep, s]
    | [s, []] => if s = deep then [s, []] else [deep, s, []]
    | segments => segments
  let closed :=
    if anchored.getLast? = some [] then anchored.dropLast ++ [deep] else anchored
  collapse closed

/-- The pieces for the segments from one on, with a slash before it where one is needed. -/
def partsFrom (directory needsSlash : Bool) : List (List Char) → Except Stop (List Glob × Finish)
  | [] => .ok ([], .whole)
  | [s] =>
    if s = deep then .ok ([], .inside directory)
    else (segment s).map fun globs =>
      (if needsSlash then .literal '/' :: globs else globs, .whole)
  | s :: rest =>
    if s = deep then
      (partsFrom directory true rest).map fun (globs, finish) => (.between :: globs, finish)
    else
      (segment s).bind fun own => (partsFrom directory true rest).map fun (globs, finish) =>
        ((if needsSlash then .literal '/' :: own else own) ++ globs, finish)

/-- What the final segments of a pattern look for. -/
def shapeOf (directory : Bool) (segments : List (List Char)) : Except Stop Shape :=
  if segments = [deep] then .ok (if directory then .slash true else .anything)
  else if segments = [deep, ['*']] then .ok .anything
  else if segments = [deep, ['*'], deep] then .ok (.slash directory)
  else match segments with
    | s :: rest =>
      if s = deep then
        (partsFrom directory false rest).map fun (globs, finish) => .parts (.above :: globs) finish
      else (partsFrom directory false (s :: rest)).map fun (globs, finish) => .parts globs finish
    | [] => .ok (.parts [] .whole)

def Glob.reversed : Glob → Bool
  | .range _ ranges => ranges.any fun (low, high) => high < low
  | _ => false

def Shape.reversed : Shape → Bool
  | .parts globs _ => globs.any Glob.reversed
  | _ => false

/-- The pattern of a line, if it holds one: blank lines, comments and a single slash do not. -/
def ofLine (line : List Char) : Except Refusal (Option Pattern) :=
  let escapedEnd := line.reverse.take 2 = [' ', '\\']
  let cs := if escapedEnd then line else Text.trimEnd line
  if cs = [] || cs.head? = some '#' || cs = ['/'] then .ok none
  else
    let (negated, body) := match cs with
      | '!' :: body => (true, body)
      | body => (false, body)
    let raw := Text.splitAt '/' body
    let segments := settle raw
    if segments.isEmpty then .error .malformed
    else match shapeOf (raw.getLast? = some []) segments with
      | .error .openEscape => .error .malformed
      | .error .openBracket => .ok none
      | .ok s => if Shape.reversed s then .error .reversedRange else .ok (some ⟨negated, s⟩)

/-- The patterns of lines, in order. -/
def ofLines : List String → Except Refusal (List Pattern)
  | [] => .ok []
  | line :: rest =>
    match ofLine line.toList with
    | .error r => .error r
    | .ok p => (ofLines rest).map (p.toList ++ ·)

end CodeAudit.Pattern
