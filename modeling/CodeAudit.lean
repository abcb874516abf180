import CodeAudit.Main
import CodeAudit.Settings.Assignment
import CodeAudit.Proofs.Registry.Session
import CodeAudit.Proofs.Settings.Layers
import CodeAudit.Proofs.Settings.Spelled
import CodeAudit.Proofs.Settings.Assignment
import CodeAudit.Proofs.Settings.Refused
import CodeAudit.Proofs.Path.Names
import CodeAudit.Proofs.Files.WellFormed
import CodeAudit.Proofs.Registry.Distinct
import CodeAudit.Proofs.Scan.Inventory
import CodeAudit.Proofs.Outcome.Local
import CodeAudit.Proofs.Pattern.Below
import CodeAudit.Proofs.Pattern.Filter
import CodeAudit.Proofs.Scan.Findings
import CodeAudit.Proofs.Scan.Pruned
import CodeAudit.Proofs.Analyzer.Precheck
import CodeAudit.Proofs.Report.Count
import CodeAudit.Proofs.Scan.Status
import CodeAudit.Proofs.Pattern.Layers
import CodeAudit.Proofs.Scan.Layers
import CodeAudit.Proofs.Process.Ending
import CodeAudit.Proofs.Run.Course
import CodeAudit.Proofs.Run.Telling
import CodeAudit.Proofs.Scan.Exclude
import CodeAudit.Proofs.Run.Still
import CodeAudit.Proofs.Run.Order
import CodeAudit.Proofs.Report.Grouping
import CodeAudit.Proofs.Report.Rules
import CodeAudit.Proofs.Analyzer.Commands
import CodeAudit.Proofs.Run.Gated
import CodeAudit.Proofs.Analyzer.Ready
import CodeAudit.Proofs.Json.Written
import CodeAudit.Proofs.Report.Mentions
import CodeAudit.Proofs.Run.Entries
import CodeAudit.Proofs.Scan.Told
import CodeAudit.Proofs.Text.Numeral
import CodeAudit.Proofs.Analyzer.Demand
import CodeAudit.Proofs.Analyzer.Reliance
import CodeAudit.Proofs.Analyzer.Readers
import CodeAudit.Proofs.Text.Blank
import CodeAudit.Proofs.Analyzer.Diagnostic
import CodeAudit.Proofs.Analyzer.WellFormed
import CodeAudit.Proofs.Report.Region
import CodeAudit.Proofs.Analyzer.Alarm
import CodeAudit.Proofs.Run.Killed
import CodeAudit.Proofs.Json.Blank
import CodeAudit.Proofs.Analyzer.Carried
import CodeAudit.Proofs.Analyzer.Clones
import CodeAudit.Proofs.Path.Relative
import CodeAudit.Proofs.Outcome.Settled
import CodeAudit.Proofs.Scan.Builtin
import CodeAudit.Proofs.Scan.Dependency
import CodeAudit.Proofs.Analyzer.Mishap
import CodeAudit.Proofs.Scan.Refused
import CodeAudit.Proofs.Settings.Found
import CodeAudit.Proofs.Process.Survivors
import CodeAudit.Proofs.Run.Named
import CodeAudit.Proofs.Scan.LineCheck
import CodeAudit.Proofs.Report.Rows
import CodeAudit.Proofs.Run.Ordered
import CodeAudit.Proofs.Run.Scope
import CodeAudit.Proofs.Report.Document
import CodeAudit.Proofs.Path.Route
import CodeAudit.Proofs.Pattern.Itself
import CodeAudit.Proofs.Scan.Restricted
import CodeAudit.Proofs.Analyzer.Subset
import CodeAudit.Proofs.Scan.Given
import CodeAudit.Proofs.Text.Lines
import CodeAudit.Proofs.Analyzer.Pieces
import CodeAudit.Proofs.Analyzer.Printed
import CodeAudit.Proofs.Analyzer.Printed.Records
import CodeAudit.Proofs.Analyzer.Hint
import CodeAudit.Proofs.Analyzer.Licensed
import CodeAudit.Proofs.Analyzer.Secrecy
import CodeAudit.Proofs.Registry.Selection
import CodeAudit.Proofs.ToolConfig.Search
