import CodeAudit.Run.Invocation
namespace CodeAudit

/-- An analyzer that is to run, with its configuration. -/
structure Scheduled where
  analyzer : Analyzer
  config : ToolConfig

/-- Results that come in one by one, each with the slot it belongs in, in slots that may stay
empty. -/
def deliver {α : Type} (slots : List (Option α)) (arrivals : List (Nat × α)) : List (Option α) :=
  arrivals.foldl (fun slots (i, a) => slots.set i (some a)) slots

/-- The results that came in, by slot. -/
def collect {α : Type} (size : Nat) (arrivals : List (Nat × α)) : List α :=
  (deliver (List.replicate size none) arrivals).filterMap id

namespace Host

def runOne (h : Host) (target : Path) (o : RunOptions) (s : Scheduled) : Act Outcome :=
  h.runTool s.analyzer s.config target o

/-- One after the other. -/
def runInTurn (h : Host) (target : Path) (o : RunOptions) : List Scheduled → Act (List Outcome)
  | [] => return []
  | s :: rest => do
    let outcome ← h.runOne target o s
    return outcome :: (← h.runInTurn target o rest)

/-- The invocations of some slots, each with its slot, in the order in which they end. -/
def runSlots (h : Host) (target : Path) (o : RunOptions) (scheduled : List Scheduled) :
    List Nat → Act (List (Nat × Outcome))
  | [] => return []
  | i :: rest => do
    match scheduled[i]? with
    | none => h.runSlots target o scheduled rest
    | some s =>
      let outcome ← h.runOne target o s
      return (i, outcome) :: (← h.runSlots target o scheduled rest)

def runTogether (h : Host) (target : Path) (o : RunOptions) (scheduled : List Scheduled) :
    Act (List Outcome) := do
  let arrivals ← h.runSlots target o scheduled (h.finishing scheduled.length)
  return collect scheduled.length arrivals

/-- All invocations of a scan, with their outcomes in the order of the schedule however many run at
a time. -/
def runTools (h : Host) (target : Path) (o : RunOptions) (scheduled : List Scheduled)
    (jobs : Int) : Act (List Outcome) :=
  if jobs ≤ 1 || scheduled.length ≤ 1 then h.runInTurn target o scheduled
  else h.runTogether target o scheduled

end Host
end CodeAudit
