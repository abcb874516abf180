import CodeAudit.Proofs.Json.Written
import CodeAudit.Proofs.Report.Rules
namespace CodeAudit

namespace Report
variable (r : Report)

namespace Markdown

theorem warning_mem_page {w : String} (hw : w ∈ r.warnings) :
    "- **[WARN]** " ++ w ∈ page r := by
  have hsome : r.warnings.isEmpty = false := by simpa using List.ne_nil_of_mem hw
  have hsection : "- **[WARN]** " ++ w ∈ warningsSection r.warnings := by
    rw [warningsSection]
    apply List.mem_append_left
    apply List.mem_append_right
    exact List.mem_map_of_mem hw
  have hbody : "- **[WARN]** " ++ w ∈ bodyLines (r.findings.map (·.2)) r.warnings := by
    rw [bodyLines, hsome, Bool.and_false, if_neg Bool.false_ne_true, if_neg Bool.false_ne_true]
    exact List.mem_append_right _ hsection
  rw [page]
  exact List.mem_append_left _ (List.mem_append_right _ hbody)

end Markdown

namespace Sarif

end Sarif

/-- How the text of a report in a format shows a warning. -/
def shown : ReportFormat → String → List Char
  | .markdown, w => ("- **[WARN]** " ++ w).toList
  | .sarif, w => Json.writtenText w

end Report
end CodeAudit
