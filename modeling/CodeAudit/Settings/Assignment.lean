import CodeAudit.Fault
import CodeAudit.Settings.Basic
namespace CodeAudit.Settings

variable {μ : Type}

/-- The name under which settings hold all their values. -/
def valuesName : String := "__dict__"

/-- The name under which settings hold what kind of record they are, which no document can give. -/
def kindName : String := "__class__"

/-- The name under which settings hold values that no option has. There are none, but whatever is
put there is given along with a later value. -/
def extraName : String := "__pydantic_extra__"

/-- The name under which settings hold which of their options were given, which is a kind of value
that no document can give. -/
def givenName : String := "__pydantic_fields_set__"

/-- Names that settings answer to and that cannot be set. -/
def readOnlyNames : List String :=
  ["model_fields_set", "model_extra", "__fields_set__", "__class_vars__", "__private_attributes__",
   "__signature__", "__weakref__"]

/-- Names that begin with a low line are free for notes, which no option depends on, apart from
those under which settings hold what they go by. -/
def isNote (name : String) : Bool := name.toList.head? = some '_'

/-- The settings after a name was set, or nothing if what they go by was replaced: there is no
saying what they do from then on. -/
def setName (s : Settings) (name : String) (v : Data μ) : Except Fault (Option Settings) :=
  if readOnlyNames.contains name then .error (.readOnly name)
  else if name = kindName then .error (.wrongKind name)
  else if name = valuesName then
    match v with
    | .record _ => .ok none
    | _ => .error (.wrongKind name)
  else if name = extraName then
    match v with
    | .record (_ :: _) => .ok none
    | _ => .ok (some s)
  else if name = givenName then .ok none
  else if isNote name then .ok (some s)
  else match s.assign name v with
    | .ok s => .ok (some s)
    | .error issues => .error (.invalid issues)

/-- The settings after each of some names was set in turn, with the fault of one that was refused,
which leaves them as they were. Once what they go by was replaced there is no answer at all. -/
def setNames (s : Settings) :
    List (String × Data μ) → Except Fault (List (Settings × Option Fault))
  | [] => .ok []
  | (name, v) :: rest =>
    match s.setName name v with
    | .ok (some t) => (setNames t rest).map ((t, none) :: ·)
    | .ok none => .error .noOptions
    | .error f => (setNames s rest).map ((s, some f) :: ·)

end CodeAudit.Settings
