import CodeAudit.Fault
import CodeAudit.Json.Writer
import CodeAudit.Report.Basic
namespace CodeAudit.Report.Sarif

inductive Level
  | error
  | warning
  | note
  deriving DecidableEq, Repr

def Level.text : Level → String
  | error => "error"
  | warning => "warning"
  | note => "note"

def levelOfTag : Tag → Level
  | .security | .bug | .privacy | .secret | .license => .error
  | .format | .duplication => .note
  | _ => .warning

/-- The level of a tag; unknown tags are warnings. -/
def level (tag : String) : Level := ((Tag.ofText? (Text.upper tag)).map levelOfTag).getD .warning

/-- The rules of findings in order of their first use, each with the tag it was first used with. -/
def rules : List Finding → List (String × String)
  | [] => []
  | f :: fs => (f.rule, f.tag) :: (rules fs).filter (·.1 != f.rule)

def ruleIndex (rs : List (String × String)) (rule : String) : Nat := rs.findIdx (·.1 == rule)

/-- Where a finding is. Lines count from one, and a finding about a whole file is on the first. -/
def region (f : Finding) : Json :=
  .record (("startLine", .int (if f.line = 0 then 1 else f.line)) ::
    match f.col with
    | none => []
    | some col => [("startColumn", .int col)])

def location (f : Finding) : Json :=
  .record [("physicalLocation", .record [
    ("artifactLocation", .record [
      ("uri", .text (String.ofList (f.file.toList.map fun c => if c = '\\' then '/' else c))),
      ("uriBaseId", .text "%SRCROOT%")]),
    ("region", region f)])]

def result (rs : List (String × String)) (tool : String) (f : Finding) : Json :=
  .record [
    ("ruleId", .text f.rule),
    ("ruleIndex", .int (ruleIndex rs f.rule)),
    ("level", .text (level f.tag).text),
    ("message", .record [("text", .text f.message)]),
    ("locations", .list [location f]),
    ("properties", .record [("sourceTool", .text tool), ("tag", .text f.tag)])]

def rule (id tag : String) : Json :=
  .record [
    ("id", .text id),
    ("shortDescription", .record [("text", .text id)]),
    ("defaultConfiguration", .record [("level", .text (level tag).text)])]

def share (o : Outcome) : Json :=
  .record [("tool", .text o.tool), ("duration", .float o.duration),
    ("findings", .int o.findings.length)]

/-- A sum of no durations is the integer zero. -/
def totalDuration (r : Report) : Json :=
  if r.outcomes.isEmpty then .int 0 else .float r.duration

def properties (r : Report) : Json :=
  .record ([
    ("targetDir", .text r.target.text),
    ("totalDuration", totalDuration r),
    ("toolBreakdown", .list (r.successes.map share))] ++
    (if r.warnings.isEmpty then [] else [("warnings", .list (r.warnings.map .text))]) ++
    if r.fix then [("fixMode", .bool true)] else [])

/-- The document of a report. -/
def document (r : Report) : Json :=
  let rs := rules (r.findings.map (·.2))
  .record [
    ("$schema", .text "https://json.schemastore.org/sarif-2.1.0.json"),
    ("version", .text "2.1.0"),
    ("runs", .list [.record [
      ("tool", .record [("driver", .record [
        ("name", .text project),
        ("version", .text version),
        ("rules", .list (rs.map fun (id, tag) => rule id tag))])]),
      ("columnKind", .text "utf16CodeUnits"),
      ("results", .list (r.findings.map fun (tool, f) => result rs tool f)),
      ("properties", properties r)]])]

def text (r : Report) : Except Fault String :=
  match Json.indented (document r) with
  | some s => .ok (s ++ "\n")
  | none => .error .numberUnwritable

end CodeAudit.Report.Sarif
