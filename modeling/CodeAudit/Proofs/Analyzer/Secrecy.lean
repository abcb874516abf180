import CodeAudit.Proofs.Analyzer.Dependency
import CodeAudit.Proofs.Json.Outline
import CodeAudit.Proofs.Json.Reread
import CodeAudit.Proofs.Run.Telling
import CodeAudit.Report.Format
namespace CodeAudit

namespace Fields

/-- Fields with the value of one of them changed. -/
def change (name : String) (f : Json → Json) (fields : Fields Empty) : Fields Empty :=
  fields.map fun (n, v) => (n, if n = name then f v else v)

theorem get_change (name : String) {f : Json → Json} (hf : f .null = .null)
    (fields : Fields Empty) (n : String) :
    get (change name f fields) n = if n = name then f (fields.get n) else fields.get n := by
  unfold get change
  induction fields with
  | nil => simp [hf]
  | cons field rest ih =>
    obtain ⟨m, v⟩ := field
    by_cases hm : n = m
    · simp [hm]
    · rw [List.map_cons, List.lookup_cons, List.lookup_cons, beq_eq_false_iff_ne.mpr hm]
      exact ih

end Fields

namespace Data

/-- A record with the value of a field changed. -/
def changeField (name : String) (f : Json → Json) : Json → Json
  | record fields => record (Fields.change name f fields)
  | v => v

/-- A list with its items changed. -/
def changeItems (f : Json → Json) : Json → Json
  | list items => list (items.map f)
  | v => v

theorem fields_changeField (name : String) (f : Json → Json) (v : Json) :
    (changeField name f v).fields = Fields.change name f v.fields := by
  cases v <;> rfl

theorem records_changeItems (name : String) (f : Json → Json) (v : Json) :
    (changeItems (changeField name f) v).records = v.records.map (Fields.change name f) := by
  cases v with
  | list items =>
    rw [changeItems, records, records, List.filterMap_map, List.map_filterMap]
    congr 1
    funext item
    cases item <;> rfl
  | _ => rfl

end Data

namespace Analyzer.Trivy
open Output

/-- The beginning of a text. -/
def begun : Json → Json
  | .text s => .text (String.ofList (s.toList.take 30))
  | v => v

/-- A secret without what its match goes on with. -/
def redactedSecret : Json → Json := Data.changeField "Match" begun

def redactedEntry : Json → Json :=
  Data.changeField "Secrets" (Data.changeItems redactedSecret)

/-- A report without what the matches of its secrets go on with. -/
def redacted : Json → Json := Data.changeField "Results" (Data.changeItems redactedEntry)

theorem display_text (s : String) : (Data.orElse (.text s) (.text "") : Json).display = s := by
  rw [Data.orElse, Data.truthy]
  cases hempty : s.isEmpty with
  | true => exact (String.isEmpty_iff.mp hempty).symm
  | false => rfl

theorem preview_begun (v : Json) :
    (Data.orElse (begun v) (.text "")).display.toList.take 30 =
      (Data.orElse v (.text "")).display.toList.take 30 := by
  cases v with
  | text s =>
    rw [begun, display_text, display_text, String.toList_ofList, List.take_take, Nat.min_self]
  | _ => rfl

/-- A secret is reported from the beginning of its match. -/
theorem secret_redacted (target : String) (item : Fields Empty) :
    secret target (Fields.change "Match" begun item) = secret target item := by
  have hget := Fields.get_change "Match" (f := begun) rfl item
  have hpreview : preview (Fields.change "Match" begun item) = preview item := by
    rw [preview, preview, hget, if_pos rfl, preview_begun]
  have hline : line (Fields.change "Match" begun item) ["StartLine"] = line item ["StartLine"] := by
    rw [line, number?, hget, if_neg (by decide)]
    rfl
  simp only [secret, hpreview, hline, text, text?, List.findSome?, hget, String.reduceEq, if_false]

theorem entryFindings_redacted (licenses : Bool) (entry : Fields Empty) :
    entryFindings licenses
      (Fields.change "Secrets" (Data.changeItems redactedSecret) entry) =
      entryFindings licenses entry := by
  have hget := Fields.get_change "Secrets" (f := Data.changeItems redactedSecret) rfl entry
  have hsecrets (target : String) :
      each (secret target) (Data.changeItems redactedSecret (entry.get "Secrets")).records =
        each (secret target) (entry.get "Secrets").records := by
    rw [redactedSecret, Data.records_changeItems, each_map]
    congr 1
    exact funext (secret_redacted target)
  simp only [entryFindings, text, text?, List.findSome?, hget, String.reduceEq, if_false, if_true,
    hsecrets]

/-- A report is read as it is without what the matches of its secrets go on with. -/
theorem each_redacted (licenses : Bool) (report : Json) :
    each (entryFindings licenses) (entries (redacted report)) =
      each (entryFindings licenses) (entries report) := by
  have hget := Fields.get_change "Results" (f := Data.changeItems redactedEntry) rfl report.fields
  have hentries : entries (redacted report) =
      (entries report).map (Fields.change "Secrets" (Data.changeItems redactedSecret)) := by
    rw [entries, redacted, Data.fields_changeField, hget, if_pos rfl, redactedEntry,
      Data.records_changeItems, entries]
  rw [hentries, each_map]
  congr 1
  exact funext (entryFindings_redacted licenses)

theorem read_tooLong {o : Output} {digits : Nat}
    (h : Json.parse o.stdout = .error (.integerTooLong digits)) :
    read o = .error (.numberTooLong digits) := by
  have hdocument : document "trivy" o.stdout = .error (.numberTooLong digits) := by
    rw [document, h]
    rfl
  have hsilent : o.silent = false := silent_of_formed (by simp [h])
  rw [read, hsilent, if_neg Bool.false_ne_true, hdocument]
  rfl

/-- Outputs that differ only in what the matches of secrets go on with. They are either documents,
or hold a number that is too long to be read, and then the same tokens but for texts. -/
inductive SameButMatches (s t : String) : Prop
  | documents {v w : Json} (hs : Json.parse s = .ok v) (ht : Json.parse t = .ok w)
    (h : redacted v = redacted w)
  | tooLong {digits : Nat} (hs : Json.parse s = .error (.integerTooLong digits))
    (h : List.Forall₂ Json.Token.Alike (Json.tokens s.toList) (Json.tokens t.toList))

/-- Nothing that a match goes on with after its beginning gets into a finding, a fault or a report,
in whatever way the outputs that differ there were left behind: what a document is read as is what
it is read as with its matches cut short. -/
theorem read_secret {o o' : Output} (hlicenses : o.licenses = o'.licenses)
    (h : SameButMatches o.stdout o'.stdout) :
    trivy.read o = trivy.read o' ∧
    (∀ report, Json.parse o.stdout = .ok report → trivy.read o =
      (each (entryFindings o.licenses) (entries (redacted report))).map .findings) ∧
    ∀ (r : Report) (before after : List Outcome) (base : Outcome) (format : ReportFormat),
      Report.render { r with
        outcomes := before ++ Host.told base ((trivy.read o).map .ok) :: after } format =
      Report.render { r with
        outcomes := before ++ Host.told base ((trivy.read o').map .ok) :: after } format := by
  have hread : trivy.read o = trivy.read o' := by
    rw [trivy_read, trivy_read]
    cases h with
    | @documents v w hs ht hsame =>
      rw [read_report hs, read_report ht, ← each_redacted, ← each_redacted _ w, hsame, hlicenses]
    | @tooLong digits hs halike =>
      rw [read_tooLong hs, read_tooLong ((Json.read_error_alike halike).mp hs)]
  refine ⟨hread, fun report hreport => ?_, fun r before after base format => ?_⟩
  · rw [trivy_read, read_report hreport, each_redacted]
  · rw [hread]

/-- A report of a secret with a match. -/
def secretReport (found : String) : Json :=
  .record [("Results", .list [.record [("Target", .text "a"),
    ("Secrets", .list [.record [("RuleID", .text "key"), ("Match", .text found)]])]])]

def secretOutput (found : String) : Output where
  stdout := Json.line (secretReport found)

theorem parse_secretOutput (found : String) :
    Json.parse (secretOutput found).stdout = .ok (secretReport found) :=
  Json.parse_line (by simp [secretReport, Fields.names]) fun f => rfl

theorem redacted_secretReport {s t : String} (h : s.toList.take 30 = t.toList.take 30) :
    redacted (secretReport s) = redacted (secretReport t) := by
  have hbegun : begun (.text s) = begun (.text t) := by rw [begun, begun, h]
  simp [redacted, redactedEntry, redactedSecret, secretReport, Data.changeField, Data.changeItems,
    Fields.change, hbegun]

theorem read_secret_longer :
    let o := secretOutput "token=0123456789abcdef0123456789"
    let o' := secretOutput "token=0123456789abcdef01234567fedcba"
    let f : Finding :=
      { file := "a", tag := Tag.secret.text, rule := "key", severity := .error,
        message := "None: None (match: token=0123456789abcdef01234567...)" }
    trivy.read o = .ok (.findings [f]) ∧ trivy.read o' = .ok (.findings [f]) := by
  intro o o' f
  have hreport : Json.parse o.stdout = .ok (secretReport "token=0123456789abcdef0123456789") :=
    parse_secretOutput _
  have hreport' :
      Json.parse o'.stdout = .ok (secretReport "token=0123456789abcdef01234567fedcba") :=
    parse_secretOutput _
  have hfound : (each (entryFindings false)
      (entries (secretReport "token=0123456789abcdef0123456789"))).toOption = some [f] := by
    decide +kernel
  have hread : read o = .ok [f] := by
    rw [read_report hreport]
    exact toOption_eq_some.mp hfound
  have hfindings : trivy.read o = .ok (.findings [f]) :=
    congrArg (Except.map Reading.findings) hread
  have hlicenses : o.licenses = o'.licenses := rfl
  have hsame : SameButMatches o.stdout o'.stdout :=
    .documents hreport hreport' (redacted_secretReport (by decide))
  exact ⟨hfindings, (read_secret hlicenses hsame).1.symm.trans hfindings⟩

end Analyzer.Trivy
end CodeAudit
