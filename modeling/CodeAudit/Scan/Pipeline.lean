import CodeAudit.Analyzer.Catalog
import CodeAudit.Analyzer.Precheck
import CodeAudit.Report.Format
import CodeAudit.Run.Schedule
import CodeAudit.Scan.Inventory
import CodeAudit.Scan.LineCheck
import CodeAudit.Settings.Load
import CodeAudit.ToolConfig.Search
namespace CodeAudit

/-- What a scan comes to. A scan that stops because analyzers are missing has a message in place of
a report. -/
structure ScanResult where
  status : ExitStatus
  report : String := ""
  outcomes : List Outcome := []
  warnings : List String := []
  message : Option String := none
  /-- The files that were scanned, if it came to that. -/
  scanned : Option (List String) := none
  deriving DecidableEq, Repr

namespace ScanResult

def findingCount (r : ScanResult) : Nat :=
  r.outcomes.foldl (fun count o => count + o.findings.length) 0

end ScanResult

namespace Scan

def noFiles : String := "No scannable files found."

def noTools : String := "No applicable tools for detected languages."

/-- What there is to say of an outcome besides its findings. -/
def warning? (o : Outcome) : Option String :=
  match o.error with
  | some e => some (o.tool ++ ": " ++ e)
  | none =>
    if o.fixSkipped then
      some (o.tool ++ ": fix skipped because the configuration is a bundled default")
    else none

end Scan

namespace Host

def reportOf (h : Host) (s : Settings) (root : Path) (outcomes : List Outcome)
    (warnings : List String) : Except Fault String :=
  Report.render { target := root, outcomes, warnings, fix := s.fix, date := h.date } s.outputFormat

/-- A scan that ends before any analyzer is looked for. -/
def idle (h : Host) (s : Settings) (root : Path) (warning : String) : Act ScanResult := do
  let report ← Act.ofExcept (h.reportOf s root [] [warning])
  return { status := .clean, report, warnings := [warning] }

def runOptions (s : Settings) (i : Inventory) : RunOptions :=
  { timeout := s.timeout
    files := if i.scope.only.isSome then i.files.map i.root.child else []
    fix := s.fix
    licenses := s.licenses }

/-- The outcome of the line check, if it is switched on. -/
def lineCheck (h : Host) (s : Settings) (i : Inventory) : Act (List Outcome) := do
  if s.maxLines ≤ 0 then return []
  else
    let files ← Act.files
    let o ← Act.ofExcept (Pattern.faulting h.wording s.lineCheckOmit
      (LineCheck.check files i.root.names i.files s.maxLines s.lineCheckOmit))
    return [{ o with duration := h.elapsed LineCheck.tool }]

/-- A scan from the analyzers that are ready on. -/
def runReady (h : Host) (s : Settings) (i : Inventory) (p : Precheck)
    (user bundled : Option Path) : Act ScanResult := do
  let files ← Act.files
  let scheduled ← Act.ofExcept (p.ready.mapM fun a =>
    (h.configOf files a.name i.root user bundled).map (Scheduled.mk a))
  let raw ← h.runTools i.root (runOptions s i) scheduled s.jobs
  let checked ← h.lineCheck s i
  let outcomes := (raw ++ checked).map (·.localize i.root i.scope)
  let warnings := p.warnings ++ outcomes.filterMap Scan.warning?
  let report ← Act.ofExcept (h.reportOf s i.root outcomes warnings)
  return {
    status := .decide outcomes
    report, outcomes, warnings
    scanned := i.files }

/-- A scan of a directory: its files, the analyzers for them, and what these find. -/
def runScan (h : Host) (r : Registry) (s : Settings) (directory : Path)
    (user bundled : Option Path) : Act ScanResult := do
  let i ← Act.ofExcept (h.scan (← Act.files) directory s.exclude s.only)
  if i.isEmpty then h.idle s i.root Scan.noFiles
  else
    let selected ← Act.ofExcept (r.select i.extensions s.tools)
    if selected.isEmpty then h.idle s i.root Scan.noTools
    else
      let p ← h.precheck selected s.autoInstall
      if p.ok then h.runReady s i p user bundled
      else return { status := .precheckFailed, message := p.message, warnings := p.warnings }

end Host
end CodeAudit
