import CodeAudit.Analyzer.Basic
namespace CodeAudit.Analyzer.Trivy
open Output

def severity (v : Json) : Except Fault Severity :=
  (isOneOf ["CRITICAL", "HIGH"] v).map severityIf

def vulnerability (target : String) (item : Fields Empty) : Except Fault (List Finding) := do
  let id := text item ["VulnerabilityID"] "unknown-cve"
  let remedy := match phrase? (item.get "FixedVersion") with
    | some version => "Upgrade to " ++ version
    | none => "No fix available"
  let message := "Vulnerable dependency: " ++ (item.get "PkgName").display ++ "@" ++
    (item.get "InstalledVersion").display ++ " has " ++ id ++ " (" ++
    (item.get "Severity").display ++ "). " ++ remedy ++ "."
  let severity ← severity (item.get "Severity")
  return [{
    file := target
    tag := Tag.dependency.text
    rule := id
    severity
    message := match phrase? (item.get "Title") with
      | some title => message ++ " " ++ title
      | none => message }]

def misconfiguration (target : String) (item : Fields Empty) : Except Fault (List Finding) := do
  let line ← line (item.get "CauseMetadata").fields ["StartLine"]
  let severity ← severity (item.get "Severity")
  return [{
    file := target
    line
    tag := Tag.infra.text
    rule := text item ["ID"] "unknown-misconfig"
    severity
    message := text item ["Title", "Message"] "Misconfiguration" }]

/-- The part of a secret that is shown. -/
def preview (item : Fields Empty) : String :=
  String.ofList ((Data.orElse (item.get "Match") (.text "")).display.toList.take 30)

def secret (target : String) (item : Fields Empty) : Except Fault (List Finding) := do
  let line ← line item ["StartLine"]
  return [{
    file := target
    line
    tag := Tag.secret.text
    rule := text item ["RuleID"] "secret"
    severity := .error
    message := (item.get "Category").display ++ ": " ++ (item.get "Title").display ++ " (match: " ++
      preview item ++ "...)" }]

def license (target : String) (item : Fields Empty) : Except Fault (List Finding) := do
  let name := text item ["Name"] "unknown"
  let subject := match phrase? (item.get "PkgName") with
    | some package => "Package " ++ package
    | none => "File"
  let severity ← severity (item.get "Severity")
  return [{
    file := text item ["FilePath"] target
    tag := Tag.license.text
    rule := "license/" ++ name
    severity
    message := subject ++ " uses license " ++ name ++ " (category: " ++
      text item ["Category"] "unknown" ++ ")" }]

/-- The findings of an entry: vulnerabilities, misconfigurations, secrets, and licenses if they were
asked for. -/
def entryFindings (licenses : Bool) (entry : Fields Empty) : Except Fault (List Finding) := do
  let target := text entry ["Target"] "unknown"
  let vulnerabilities ← each (vulnerability target) (entry.get "Vulnerabilities").records
  let misconfigurations ← each (misconfiguration target) (entry.get "Misconfigurations").records
  let secrets ← each (secret target) (entry.get "Secrets").records
  let found := vulnerabilities ++ misconfigurations ++ secrets
  if licenses then return found ++ (← each (license target) (entry.get "Licenses").records)
  else return found

def read (o : Output) : Except Fault (List Finding) := do
  if o.silent then
    if 0 < o.status && !Text.blank o.stderr then fault ("trivy error: " ++ brief o.stderr)
    else return []
  else
    each (entryFindings o.licenses)
      (Fields.get (← document "trivy" o.stdout).fields "Results").records

def build (r : Request) : Command :=
  { executable := "trivy"
    args := ["fs", "--scanners",
      if r.licenses then "vuln,misconfig,secret,license" else "vuln,misconfig,secret",
      "--format", "json", "--quiet"] ++ r.configArgs "--config" ++ [r.target.text] }

end Trivy

def trivy : Analyzer where
  name := "trivy"
  extensions := [".py", ".js", ".ts", ".go", ".java", ".rb", ".php", ".tf", ".yaml", ".yml"]
  installHint :=
    "curl -sfL https://raw.githubusercontent.com/aquasecurity/trivy/main/contrib/install.sh" ++
      " | sh -s -- -b ~/.local/bin"
  build r := .ok (Trivy.build r)
  read := findings Trivy.read

end CodeAudit.Analyzer
