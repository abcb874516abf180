import CodeAudit.Number.Decimal
import CodeAudit.Text.Digit
namespace CodeAudit

/-- What the command line of a scan asks for. -/
structure ScanArguments where
  directory : String := "."
  timeout : Option Double := none
  tools : Option String := none
  exclude : Option String := none
  only : Option String := none
  fix : Option Bool := none
  licenses : Option Bool := none
  autoInstall : Option Bool := none
  outputFormat : Option String := none
  maxLines : Option Int := none
  jobs : Option Int := none
  verbose : Bool := false
  emoji : Bool := true
  deriving DecidableEq, Repr

/-- An option that goes with a value. -/
inductive ValueOption
  | timeout
  | tools
  | exclude
  | only
  | format
  | maxLines
  | jobs
  deriving DecidableEq, Repr

/-- An option that stands alone. -/
inductive FlagOption
  | fix (on : Bool)
  | licenses (on : Bool)
  | autoInstall (on : Bool)
  | verbose
  | emoji (on : Bool)
  | color (on : Bool)
  | help
  deriving DecidableEq, Repr

inductive ScanOption
  | value (o : ValueOption)
  | flag (o : FlagOption)
  deriving DecidableEq, Repr

/-- An option as it was given. -/
inductive Given
  | value (o : ValueOption) (text : String)
  | flag (o : FlagOption)
  | operand (text : String)
  deriving DecidableEq, Repr

namespace ScanOption

def long? : String → Option ScanOption
  | "--timeout" => some (.value .timeout)
  | "--tools" => some (.value .tools)
  | "--exclude" => some (.value .exclude)
  | "--only" => some (.value .only)
  | "--format" => some (.value .format)
  | "--max-lines" => some (.value .maxLines)
  | "--jobs" => some (.value .jobs)
  | "--fix" => some (.flag (.fix true))
  | "--no-fix" => some (.flag (.fix false))
  | "--licenses" => some (.flag (.licenses true))
  | "--no-licenses" => some (.flag (.licenses false))
  | "--auto-install" => some (.flag (.autoInstall true))
  | "--no-auto-install" => some (.flag (.autoInstall false))
  | "--verbose" => some (.flag .verbose)
  | "--emoji" => some (.flag (.emoji true))
  | "--no-emoji" => some (.flag (.emoji false))
  | "--color" => some (.flag (.color true))
  | "--no-color" => some (.flag (.color false))
  | "--help" => some (.flag .help)
  | _ => none

def short? : Char → Option ScanOption
  | 't' => some (.value .timeout)
  | 'x' => some (.value .exclude)
  | 'j' => some (.value .jobs)
  | 'v' => some (.flag .verbose)
  | _ => none

end ScanOption

namespace ScanArguments

/-- The options that a word of single letters gives; the last may wait for a value in the next
word. -/
def cluster : List Char → Option (List Given × Option ValueOption)
  | [] => some ([], none)
  | c :: cs =>
    match ScanOption.short? c with
    | none => none
    | some (.flag f) => (cluster cs).map fun (given, waiting) => (.flag f :: given, waiting)
    | some (.value v) =>
      if cs.isEmpty then some ([], some v) else some ([.value v (String.ofList cs)], none)

/-- The options that a word beginning with a hyphen gives. -/
def word (cs : List Char) : Option (List Given × Option ValueOption) :=
  let name := String.ofList (cs.takeWhile (· != '='))
  match ScanOption.long? name, cs.dropWhile (· != '=') with
  | some (.value v), _ :: text => some ([.value v (String.ofList text)], none)
  | some (.value v), [] => some ([], some v)
  | some (.flag f), [] => some ([.flag f], none)
  | some (.flag _), _ :: _ => none
  | none, _ => if ['-', '-'].isPrefixOf cs then none else cluster (cs.drop 1)

/-- What the words of a command line give, in order, `waiting` for the value of an option. After a
double hyphen all words are operands. -/
def givenFrom (waiting : Option ValueOption) : List String → Option (List Given)
  | [] => if waiting.isSome then none else some []
  | w :: ws =>
    match waiting with
    | some v => (givenFrom none ws).map (.value v w :: ·)
    | none =>
      if w = "--" then some (ws.map .operand)
      else if w.toList.head? = some '-' && 1 < w.length then
        (word w.toList).bind fun (given, waiting) => (givenFrom waiting ws).map (given ++ ·)
      else (givenFrom none ws).map (.operand w :: ·)

def integer? (s : String) : Option Int :=
  match Text.readInteger s.toList with
  | .ok n => some n
  | .error _ => none

def setValue (a : ScanArguments) (s : String) : ValueOption → Option ScanArguments
  | .timeout => (Double.readGrouped? s.toList).map fun x => { a with timeout := some x }
  | .tools => some { a with tools := some s }
  | .exclude => some { a with exclude := some s }
  | .only => some { a with only := some s }
  | .format => some { a with outputFormat := some s }
  | .maxLines => (integer? s).map fun n => { a with maxLines := some n }
  | .jobs => (integer? s).map fun n => { a with jobs := some n }

def setFlag (a : ScanArguments) : FlagOption → ScanArguments
  | .fix on => { a with fix := some on }
  | .licenses on => { a with licenses := some on }
  | .autoInstall on => { a with autoInstall := some on }
  | .verbose => { a with verbose := true }
  | .emoji on => { a with emoji := on }
  | .color _ => a
  | .help => a

/-- The arguments with one option more; of an option given twice the later counts. -/
def take (a : ScanArguments) : Given → Option ScanArguments
  | .value o s => a.setValue s o
  | .flag o => some (a.setFlag o)
  | .operand s => some { a with directory := s }

end ScanArguments

/-- What a command line asks for. -/
inductive Task
  | version
  | help
  | listing
  | scan (a : ScanArguments)
  | misuse
  deriving DecidableEq, Repr

namespace Task

def isOperand : Given → Bool
  | .operand _ => true
  | _ => false

/-- A scan with some options, or a call for help, which comes before any fault in their values. -/
def ofScanWords (ws : List String) : Task :=
  match ScanArguments.givenFrom none ws with
  | none => misuse
  | some given =>
    if given.contains (.flag .help) then help
    else if 1 < (given.filter isOperand).length then misuse
    else match given.foldlM ScanArguments.take {} with
      | some a => scan a
      | none => misuse

def ofListingWords (ws : List String) : Task :=
  if ws.contains "--help" then help else if ws.all (· = "--") then listing else misuse

/-- The words of a command and its own words. -/
def ofCommand : List String → Task
  | "scan" :: ws => ofScanWords ws
  | "tools" :: ws => ofListingWords ws
  | _ => misuse

/-- A command line, `earlier` being what was asked for before a command. -/
def ofWordsAfter (earlier : Option Task) : List String → Task
  | [] => earlier.getD misuse
  | w :: ws =>
    if w = "--" then earlier.getD (ofCommand ws)
    else if w = "--version" then ofWordsAfter (earlier.or (some version)) ws
    else if w = "--help" then ofWordsAfter (earlier.or (some help)) ws
    else if w.toList.head? = some '-' && 1 < w.length then misuse
    else earlier.getD (ofCommand (w :: ws))

/-- What a command line asks for. -/
def ofWords (ws : List String) : Task := ofWordsAfter none ws

end Task
end CodeAudit
