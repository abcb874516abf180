import CodeAudit.Proofs.Run.Order
import Mathlib.Data.List.Forall2
namespace CodeAudit

namespace Host
open Act
variable (h : Host) (target : Path) (o : RunOptions) (scheduled : List Scheduled)

/-- An analyzer came to an outcome when it was run, whatever had happened before. -/
def CameTo (s : Scheduled) (x : Outcome) : Prop := ∃ u, ((h.runOne target o s).on u).1 = .ok x

theorem CameTo.tool {h : Host} {target : Path} {o : RunOptions} {s : Scheduled} {x : Outcome}
    (hx : h.CameTo target o s x) : x.tool = s.analyzer.name := by
  obtain ⟨u, hu⟩ := hx
  rw [runOne_alone] at hu
  rw [← Except.ok.inj hu]
  exact (told_keeps _ _).1

end Host
end CodeAudit
