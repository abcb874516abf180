import CodeAudit.Report.Markdown
import CodeAudit.Report.Sarif
namespace CodeAudit.Report

/-- The text of a report in a format. -/
def render (r : Report) : ReportFormat → Except Fault String
  | .markdown => Markdown.text r
  | .sarif => Sarif.text r

/-- The text of a report in a format given by its name. -/
def renderAs (r : Report) (format : String) : Except Fault String :=
  if format = ReportFormat.markdown.text then render r .markdown
  else if format = ReportFormat.sarif.text then render r .sarif
  else .error (.unsupportedFormat format)

end CodeAudit.Report
