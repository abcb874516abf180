import CodeAudit.Analyzer.Basic
namespace CodeAudit.Analyzer.Clippy
open Output

def classify (lint : Option String) : Tag :=
  let has (words : List String) : Bool :=
    words.any fun w => Text.contains w.toList (lint.getD "").toList
  if has ["correctness", "suspicious"] then .bug
  else if has ["perf", "complexity"] then .refactor
  else .linter

/-- The primary span of a message, or else its first. -/
def anchor? (spans : List (Fields Empty)) : Option (Fields Empty) :=
  (spans.find? fun s => (s.get "is_primary").truthy).or spans.head?

/-- The finding of a record. Records other than messages, notes and messages without a place yield
none. -/
def finding (item : Fields Empty) : Except Fault (List Finding) := do
  let message := (item.get "message").fields
  if !(item.get "reason").isText "compiler-message" || message.isEmpty ||
      (message.get "level").isText "note" then return []
  else match anchor? (message.get "spans").records with
    | none => return []
    | some span =>
      let lint := phrase? (Fields.get (message.get "code").fields "code")
      let line ← line span ["line_start"]
      let col ← positive? (span.get "column_start")
      return [{
        file := text span ["file_name"] "unknown"
        line, col
        tag := (classify lint).text
        rule := lint.getD "clippy"
        severity := severityIf ((message.get "level").isText "error")
        message := text message ["message"] "" }]

/-- The status of a build that failed, and all above it. -/
def failure : Int := 101

def read (o : Output) : Except Fault (List Finding) := do
  if failure ≤ o.status then
    fault ("clippy error (exit " ++ integerText o.status ++ "): " ++
      brief (if o.stderr.isEmpty then o.stdout else o.stderr))
  else each finding (← records o.stdout)

def build (r : Request) : Command :=
  { executable := "cargo"
    args := ["clippy"] ++ (if r.fix then ["--fix", "--allow-dirty", "--allow-staged"] else []) ++
      ["--message-format=json", "--all-targets", "--all-features", "--", "--no-deps"]
    workingDir := r.target }

end Clippy

def clippy : Analyzer where
  name := "clippy"
  extensions := [".rs"]
  installHint := "rustup component add clippy"
  executable := "cargo"
  versionArgs := ["clippy", "--version"]
  supportsFix := true
  build r := .ok (Clippy.build r)
  read := findings Clippy.read

end CodeAudit.Analyzer
