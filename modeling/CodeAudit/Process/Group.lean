import CodeAudit.Number.Double
namespace CodeAudit

/-- A process of a group that was started together. -/
structure Member where
  /-- The seconds after which it ends by itself. -/
  lifetime : Double := .zero
  /-- A request to end does not end it. -/
  ignoresTerm : Bool := false
  /-- It keeps the pipes open that its output goes through. -/
  holdsPipes : Bool := true
  deriving DecidableEq, Repr

/-- The processes of a group: the one that was started, and those it has started. -/
structure Group where
  leader : Member
  workers : List Member := []
  deriving DecidableEq, Repr

namespace Group

def members (g : Group) : List Member := g.leader :: g.workers

/-- The processes that are waited for: the leader, and all that hold the pipes. -/
def awaited (g : Group) : List Member := g.leader :: g.workers.filter (·.holdsPipes)

/-- Whether all that is waited for has ended by itself at a time. -/
def finishedBy (g : Group) (time : Double) : Bool := g.awaited.all fun m => m.lifetime.le time

/-- The members that are still there at a time. -/
def aliveAt (ms : List Member) (time : Double) : List Member :=
  ms.filter fun m => time.lt m.lifetime

/-- The members that are there at a time and go on when they are asked to end. -/
def deafAt (g : Group) (time : Double) : List Member :=
  (aliveAt g.members time).filter (·.ignoresTerm)

/-- Whether some member keeps the pipes open at a time. -/
def holdsPipesAt (g : Group) (time : Double) : Bool :=
  (aliveAt g.members time).any (·.holdsPipes)

/-- The time at which the last of some members has ended, if that is later than `time`. -/
def lastEnd (ms : List Member) (time : Double) : Double :=
  ms.foldl (fun t m => if t.lt m.lifetime then m.lifetime else t) time

/-- When a limit has passed, which is not before the start. -/
def passing (limit : Double) : Double := if limit.lt .zero then .zero else limit

/-- The members that are left when a group that did not finish by a time is asked to end and then,
after a delay, made to end. Nothing more is done once all that is waited for has ended, which
nothing has in no time at all. -/
def terminate (g : Group) (time grace : Double) : List Member :=
  let waited := (aliveAt g.awaited time).filter (·.ignoresTerm)
  if !grace.le .zero && waited.all fun m => !(time.add grace).lt m.lifetime then
    aliveAt (g.deafAt time) (lastEnd waited time)
  else []

end Group
end CodeAudit
