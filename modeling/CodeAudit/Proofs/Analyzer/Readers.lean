import CodeAudit.Analyzer.Catalog
import CodeAudit.Proofs.Analyzer.Reliance
namespace CodeAudit.Analyzer
open Output

namespace Ruff

def demands (item : Fields Empty) : List Demand :=
  place (item.get "location").fields "row" "column"

theorem asks (item : Fields Empty) : Asks (demands item) (finding item) := asks_place _ _ _ _

/-- The diagnostics of a document, which may stand under a name of their own. -/
def diagnostics : Json → Json
  | .record fields => Fields.get fields "diagnostics"
  | v => v

def relied : Output → List Demand := inPrinted fun v => (diagnostics v).records.flatMap demands

theorem relies (o : Output) : Relies (relied o) (read o) :=
  relies_printed (.refused_or _ _) (fun _ => .each fun item _ => asks item) o

end Ruff

namespace Mypy

def demands (item : Fields Empty) : List Demand :=
  if !(item.get "severity").isText "error" then [] else place item "line" "column"

theorem asks (item : Fields Empty) : Asks (demands item) (finding item) :=
  .ite (.ok []) (asks_place _ _ _ _)

def relied (o : Output) : List Demand := if o.silent then [] else inLines demands o.stdout

theorem relies (o : Output) : Relies (relied o) (read o) :=
  .ite (.refused_or _ _) (.of_asks (asks_records asks _))

end Mypy

namespace Vulture

def demands (cs : List Char) : List Demand :=
  match report? cs with
  | none => []
  | some report => [.digits report.line]

theorem asks (cs : List Char) : Asks (demands cs) (finding cs) := by
  rw [demands, finding]
  cases hreport : report? cs with
  | none => exact .ok []
  | some report => exact (asks_digits (line_of_report hreport)).bind_ok fun _ => ⟨_, rfl⟩

def relied (o : Output) : List Demand :=
  if o.status = 2 then [] else (Text.splitLines (Text.trim o.stdout.toList)).flatMap demands

theorem relies (o : Output) : Relies (relied o) (read o) :=
  .ite (.refused _) (.of_asks (.each fun line _ => asks line))

end Vulture

namespace Tsc

def demands (cs : List Char) : List Demand :=
  match report? (Text.trim cs) with
  | none => []
  | some report => [.digits report.line, .digits report.col]

theorem asks (cs : List Char) : Asks (demands cs) (finding cs) := by
  rw [demands, finding]
  cases hreport : report? (Text.trim cs) with
  | none => exact .ok []
  | some report =>
    obtain ⟨hline, hcol, -⟩ := of_report hreport
    refine (asks_digits hline).bind fun line _ => ?_
    refine (asks_digits hcol).bind_ok fun col => ?_
    exact ⟨_, rfl⟩

def relied (o : Output) : List Demand :=
  if 3 ≤ o.status then [] else (Text.splitLines o.stdout.toList).flatMap demands

theorem relies (o : Output) : Relies (relied o) (read o) :=
  .ite (.refused _) (.of_asks (.each fun line _ => asks line))

end Tsc

namespace Eslint

def messageDemands (item : Fields Empty) : List Demand :=
  if (phrase? (item.get "ruleId")).isNone &&
      Text.contains uncovered (text item ["message"] "").toList then []
  else place item "line" "column"

theorem asks (file : String) (item : Fields Empty) :
    Asks (messageDemands item) (finding file item) :=
  .ite (.ok []) (asks_place _ _ _ _)

def demands (item : Fields Empty) : List Demand :=
  (item.get "messages").records.flatMap messageDemands

def relied : Output → List Demand := inPrinted fun v => v.records.flatMap demands

theorem relies (o : Output) : Relies (relied o) (read o) :=
  relies_printed (.refused_or _ _)
    (fun _ => .each fun _ _ => .each fun message _ => asks _ message) o

end Eslint

namespace Stylelint

def demands (item : Fields Empty) : List Demand :=
  (item.get "warnings").records.flatMap (place · "line" "column")

theorem asks (file : String) (item : Fields Empty) :
    Asks (place item "line" "column") (finding file item) :=
  asks_place _ _ _ _

def relied : Output → List Demand := inPrinted fun v => v.records.flatMap demands

theorem relies (o : Output) : Relies (relied o) (read o) :=
  relies_printed (.refused_or _ _)
    (fun _ => .each fun _ _ => .each fun warning _ => asks _ warning) o

end Stylelint

namespace Sqlfluff

def violationDemands (item : Fields Empty) : List Demand :=
  Demand.alternatives (["start_line_no", "line_no"].map item.get) ++
    Demand.alternatives (["start_line_pos", "line_pos"].map item.get)

theorem asks (file : String) (item : Fields Empty) :
    Asks (violationDemands item) (finding file item) := by
  refine (asks_line item _).bind fun line _ => ?_
  refine (asks_number item _).bind_ok fun col => ?_
  exact ⟨_, rfl⟩

def demands (item : Fields Empty) : List Demand :=
  (item.get "violations").records.flatMap violationDemands

def relied : Output → List Demand := inPrinted fun v => v.records.flatMap demands

theorem relies (o : Output) : Relies (relied o) (read o) :=
  relies_printed (.refused_or _ _)
    (fun _ => .each fun _ _ => .each fun violation _ => asks _ violation) o

end Sqlfluff

namespace Semgrep

/-- What is relied on to tag a result: its impact is looked up unless its category is security. -/
def tagDemands (metadata : Fields Empty) : List Demand :=
  if (Data.orElse (metadata.get "category") (.text "")).isText "security" then []
  else [.word (Data.orElse (metadata.get "impact") (.text ""))]

theorem asks_classify (metadata : Fields Empty) :
    Asks (tagDemands metadata) (classify metadata) := by
  apply Asks.ite
  · exact .ok _
  · apply (asks_isOneOf _ _).bind_ok
    intro known
    split
    · exact ⟨_, rfl⟩
    · split
      · exact ⟨_, rfl⟩
      · exact ⟨_, rfl⟩

def demands (item : Fields Empty) : List Demand :=
  place (item.get "start").fields "line" "col" ++
    tagDemands (Fields.get (item.get "extra").fields "metadata").fields

theorem asks (item : Fields Empty) : Asks (demands item) (finding item) := by
  refine (asks_line_singleton _ _).bind fun line _ => ?_
  refine (asks_positive _).bind fun col _ => ?_
  refine (asks_classify _).bind_ok fun tag => ?_
  exact ⟨_, rfl⟩

def relied : Output → List Demand :=
  inPrinted fun v => (Fields.get v.fields "results").records.flatMap demands

theorem relies (o : Output) : Relies (relied o) (read o) :=
  relies_printed (.refused_or _ _) (fun _ => .each fun item _ => asks item) o

end Semgrep

namespace Bearer

/-- What is relied on to place a finding: its line and its column, each in a field of its own or
else in the start. -/
def locationDemands (location : Fields Empty) : List Demand :=
  let start := (location.get "start").fields
  Demand.alternatives [location.get "line_number", start.get "line"] ++
    Demand.alternatives [location.get "column_number", start.get "column"]

theorem asks_location (item : Fields Empty) (severity : Severity) (location : Fields Empty) :
    Asks (locationDemands location) (finding item severity location) := by
  refine asks_or_bind (asks_number _ ["line"]) fun line => ?_
  refine asks_or_bind_ok (asks_number _ ["column"]) fun col => ?_
  exact ⟨_, rfl⟩

def locations (item : Fields Empty) : List (Fields Empty) :=
  if (item.get "locations").records.isEmpty then [item] else (item.get "locations").records

def demands (item : Fields Empty) : List Demand :=
  .word (item.get "severity") :: (locations item).flatMap locationDemands

theorem asks (item : Fields Empty) : Asks (demands item) (itemFindings item) := by
  refine (asks_isOneOf _ _).bind fun known _ => ?_
  exact .each fun location _ => asks_location item _ location

def relied : Output → List Demand :=
  inPrinted fun v =>
    (Data.orElse (v.fields.get "warnings") (v.fields.get "findings")).records.flatMap demands

theorem relies (o : Output) : Relies (relied o) (read o) :=
  relies_printed (.refused_or _ _) (fun _ => .each fun item _ => asks item) o

end Bearer

namespace GolangciLint

def demands (item : Fields Empty) : List Demand :=
  place (item.get "Pos").fields "Line" "Column"

theorem asks (item : Fields Empty) : Asks (demands item) (finding item) := asks_place _ _ _ _

def relied : Output → List Demand :=
  inPrinted fun v => (Fields.get v.fields "Issues").records.flatMap demands

theorem relies (o : Output) : Relies (relied o) (read o) :=
  relies_printed (.refused_or _ _) (fun _ => .each fun item _ => asks item) o

end GolangciLint

namespace Clippy

def demands (item : Fields Empty) : List Demand :=
  let message := (item.get "message").fields
  if !(item.get "reason").isText "compiler-message" || message.isEmpty ||
      (message.get "level").isText "note" then []
  else match anchor? (message.get "spans").records with
    | none => []
    | some span => place span "line_start" "column_start"

theorem asks (item : Fields Empty) : Asks (demands item) (finding item) := by
  apply Asks.ite
  · exact .ok []
  · cases anchor? ((item.get "message").fields.get "spans").records with
    | none => exact .ok []
    | some span => exact asks_place span _ _ _

def relied (o : Output) : List Demand :=
  if failure ≤ o.status then [] else inLines demands o.stdout

theorem relies (o : Output) : Relies (relied o) (read o) :=
  .ite (.refused _) (.of_asks (asks_records asks _))

end Clippy

namespace Trivy

theorem asks_severity (v : Json) : Asks [.word v] (severity v) := (asks_isOneOf _ v).map _

theorem asks_vulnerability (target : String) (item : Fields Empty) :
    Asks [.word (item.get "Severity")] (vulnerability target item) :=
  (asks_severity _).bind_ok fun _ => ⟨_, rfl⟩

theorem asks_misconfiguration (target : String) (item : Fields Empty) :
    Asks [.number ((item.get "CauseMetadata").fields.get "StartLine"),
      .word (item.get "Severity")] (misconfiguration target item) := by
  refine (asks_line_singleton _ _).bind fun line _ => ?_
  refine (asks_severity _).bind_ok fun severity => ?_
  exact ⟨_, rfl⟩

theorem asks_secret (target : String) (item : Fields Empty) :
    Asks [.number (item.get "StartLine")] (secret target item) :=
  (asks_line_singleton _ _).bind_ok fun _ => ⟨_, rfl⟩

theorem asks_license (target : String) (item : Fields Empty) :
    Asks [.word (item.get "Severity")] (license target item) :=
  (asks_severity _).bind_ok fun _ => ⟨_, rfl⟩

def demands (licenses : Bool) (entry : Fields Empty) : List Demand :=
  ((entry.get "Vulnerabilities").records.flatMap fun item => [.word (item.get "Severity")]) ++
  (((entry.get "Misconfigurations").records.flatMap fun item =>
    [.number ((item.get "CauseMetadata").fields.get "StartLine"), .word (item.get "Severity")]) ++
  (((entry.get "Secrets").records.flatMap fun item => [.number (item.get "StartLine")]) ++
  if licenses then
    (entry.get "Licenses").records.flatMap fun item => [.word (item.get "Severity")]
  else []))

theorem asks (licenses : Bool) (entry : Fields Empty) :
    Asks (demands licenses entry) (entryFindings licenses entry) := by
  refine Asks.bind (.each fun item _ => asks_vulnerability _ item) fun vulnerabilities _ => ?_
  refine Asks.bind (.each fun item _ => asks_misconfiguration _ item)
    fun misconfigurations _ => ?_
  refine Asks.bind (.each fun item _ => asks_secret _ item) fun secrets _ => ?_
  apply Asks.ite
  · exact (Asks.each fun item _ => asks_license _ item).bind_ok fun _ => ⟨_, rfl⟩
  · exact .ok _

def relied (o : Output) : List Demand :=
  inPrinted (fun v => (Fields.get v.fields "Results").records.flatMap (demands o.licenses)) o

theorem relies (o : Output) : Relies (relied o) (read o) :=
  relies_printed (.refused_or _ _) (fun _ => .each fun entry _ => asks _ entry) o

end Trivy

namespace Jscpd

def startDemands (side : Fields Empty) : List Demand :=
  let place := (side.get "startLoc").fields
  Demand.alternatives [place.get "line", side.get "start"] ++ [.number (place.get "column")]

theorem asks_start (side : Fields Empty) : Asks (startDemands side) (start side) := by
  apply asks_or_bind
  · rw [Demand.alternatives_singleton]
    exact asks_positive _
  · exact fun _ => (asks_positive _).bind_ok fun _ => ⟨_, rfl⟩

theorem asks_side (rule size : String) (here there : Fields Empty) :
    Asks (startDemands here ++ startDemands there) (side rule size here there) := by
  refine (asks_start here).bind fun place _ => ?_
  refine (asks_start there).bind_ok fun other => ?_
  exact ⟨_, rfl⟩

def demands (item : Fields Empty) : List Demand :=
  startDemands (item.get "firstFile").fields ++ startDemands (item.get "secondFile").fields

theorem asks (item : Fields Empty) : Asks (demands item) (pair item) := by
  have hboth : Asks
      (demands item ++
        (startDemands (item.get "secondFile").fields ++ startDemands (item.get "firstFile").fields))
      (pair item) := by
    refine (asks_side _ _ _ _).bind fun first _ => ?_
    refine (asks_side _ _ _ _).bind_ok fun second => ?_
    exact ⟨_, rfl⟩
  refine .of_same (fun d => ?_) hboth
  grind [demands]

def relied (o : Output) : List Demand :=
  match o.files.lookup reportName with
  | none => []
  | some bytes => .utf8 bytes :: match Text.decode bytes with
    | .ok cs => inDocument (fun v => (Fields.get v.fields "duplicates").records.flatMap demands)
        (Text.unifyNewlines cs)
    | .error _ => []

theorem relies (o : Output) : Relies (relied o) (read o) := by
  rw [relied, read]
  cases o.files.lookup reportName with
  | none => exact .refused_or _ _
  | some bytes =>
    dsimp only
    rcases hdecode : Text.decode bytes with e | cs
    · have hunmet : ¬ (Demand.utf8 bytes).Met := by
        rintro ⟨cs, hcs⟩
        rw [hdecode] at hcs
        cases hcs
      exact .of_asks (.of_unmet hunmet (.undecodable e))
    · have hmet : (Demand.utf8 bytes).Met := ⟨cs, hdecode⟩
      have hdocument := relies_document (m := "jscpd: failed to read report " ++ reportName ++ ": " ++
          o.wording (String.ofList (Text.unifyNewlines cs)))
        (f := fun v => each pair (Fields.get v.fields "duplicates").records)
        (fun _ => .each fun item _ => asks item) (Text.unifyNewlines cs)
      apply Relies.cons hmet
      dsimp only
      rcases hread : Json.read (Text.unifyNewlines cs) with e | v
      all_goals
        rw [hread] at hdocument
        exact hdocument

end Jscpd

namespace Knip

def exportDemands (item : Fields Empty) : List Demand :=
  Demand.alternatives (["line", "row"].map item.get) ++ [.number (item.get "col")]

theorem asks_export (item : Fields Empty) : Asks (exportDemands item) (unusedExport item) := by
  refine (asks_line item _).bind fun line _ => ?_
  refine (asks_positive _).bind_ok fun col => ?_
  exact ⟨_, rfl⟩

def demands (payload : Fields Empty) : List Demand :=
  .items (payload.get "files") :: (payload.get "exports").records.flatMap exportDemands ++
    [.items (payload.get "dependencies"), .items (payload.get "unlisted")]

def relied : Output → List Demand := inPrinted fun v => demands v.fields

theorem relies (o : Output) : Relies (relied o) (read o) := by
  apply relies_printed
  · split
    · exact .of_asks (.ok [])
    · exact .refused_or _ _
  · intro v
    refine (asks_items _).bind fun files _ => ?_
    refine Asks.bind (.each fun item _ => asks_export item) fun exports _ => ?_
    refine (asks_items _).bind fun unused _ => ?_
    refine (asks_items _).bind_ok fun unlisted => ?_
    exact ⟨_, rfl⟩

end Knip

namespace Typos

def demands (item : Fields Empty) : List Demand :=
  match phrase? (item.get "typo") with
  | none => []
  | some _ => [.items (item.get "corrections"), .number (item.get "line_num")]

theorem asks (item : Fields Empty) : Asks (demands item) (finding item) := by
  rw [demands, finding]
  cases phrase? (item.get "typo") with
  | none => exact .ok []
  | some typo =>
    refine (asks_items _).bind fun corrections _ => ?_
    refine (asks_line_singleton _ _).bind_ok fun line => ?_
    exact ⟨_, rfl⟩

def relied (o : Output) : List Demand := if o.silent then [] else inLines demands o.stdout

theorem relies (o : Output) : Relies (relied o) (read o) :=
  .ite (.refused_or _ _) (.of_asks (asks_records asks _))

end Typos

/-- Exactly what an analyzer's reader relies on: with it there are findings or a failure told of the
analyzer, and any other fault tells what was missing. -/
structure ReliesOn (a : Analyzer) (demands : Output → List Demand) : Prop where
  foreseen : ∀ o, ((∃ fs, a.read o = .ok (.findings fs)) ∨ ∃ m, a.read o = .error (.toolOutput m)) ↔
    ∀ d ∈ demands o, d.Met
  raises : ∀ o f, a.read o = .error f →
    (∃ m, f = .toolOutput m) ∨ ∃ d ∈ demands o, ¬ d.Met ∧ d.Raises f

theorem ReliesOn.of_relies {a : Analyzer} {read : Output → Except Fault (List Finding)}
    {demands : Output → List Demand} (ha : a.read = findings read)
    (h : ∀ o, Relies (demands o) (read o)) : a.ReliesOn demands := by
  constructor
  · intro o
    rw [← (h o).foreseen, ha, findings]
    cases read o <;> simp [Foreseen, Except.map]
  · intro o f hf
    rw [ha] at hf
    exact ((h o).map _).raises f hf

def reliances : List (Analyzer × (Output → List Demand)) :=
  [(.ruff, Ruff.relied), (.mypy, Mypy.relied), (.vulture, Vulture.relied),
   (.eslint, Eslint.relied), (.tsc, Tsc.relied), (.stylelint, Stylelint.relied),
   (.semgrep, Semgrep.relied), (.bearer, Bearer.relied), (.golangciLint, GolangciLint.relied),
   (.clippy, Clippy.relied), (.sqlfluff, Sqlfluff.relied), (.trivy, Trivy.relied),
   (.jscpd, Jscpd.relied), (.knip, Knip.relied), (.typos, Typos.relied)]

theorem reliances_relyOn : ∀ entry ∈ reliances, entry.1.ReliesOn entry.2 := by
  rw [reliances]
  simp only [List.forall_mem_cons]
  exact ⟨.of_relies rfl Ruff.relies, .of_relies rfl Mypy.relies, .of_relies rfl Vulture.relies,
    .of_relies rfl Eslint.relies, .of_relies rfl Tsc.relies, .of_relies rfl Stylelint.relies,
    .of_relies rfl Semgrep.relies, .of_relies rfl Bearer.relies,
    .of_relies rfl GolangciLint.relies, .of_relies rfl Clippy.relies,
    .of_relies rfl Sqlfluff.relies, .of_relies rfl Trivy.relies, .of_relies rfl Jscpd.relies,
    .of_relies rfl Knip.relies, .of_relies rfl Typos.relies, nofun⟩

theorem reliances_fst : reliances.map Prod.fst = Registry.builtin.analyzers := rfl

/-- Every built-in analyzer comes to findings, or to a failure that is told of it, exactly where its
output keeps to all that the reader relies on. Any other fault tells of something that it does not
keep to. -/
theorem builtin_relies {a : Analyzer} (ha : a ∈ Registry.builtin.analyzers) (o : Output) :
    ∃ demands, (a, demands) ∈ reliances ∧
      (((∃ fs, a.read o = .ok (.findings fs)) ∨ ∃ m, a.read o = .error (.toolOutput m)) ↔
        ∀ d ∈ demands o, d.Met) ∧
      ∀ f, a.read o = .error f →
        (∃ m, f = .toolOutput m) ∨ ∃ d ∈ demands o, ¬ d.Met ∧ d.Raises f := by
  rw [← reliances_fst] at ha
  obtain ⟨⟨_, demands⟩, hentry, rfl⟩ := List.mem_map.mp ha
  have hrelies := reliances_relyOn _ hentry
  exact ⟨demands, hentry, hrelies.foreseen o, hrelies.raises o⟩

def Jscpd.damaged : Output := { files := [(reportName, [0xFF])] }

theorem Jscpd.damaged_unmet :
    (∃ cause, jscpd.read damaged = .error (.undecodable cause)) ∧
      ∃ demands, (jscpd, demands) ∈ reliances ∧ ∃ d ∈ demands damaged, ¬ d.Met := by
  have hread : jscpd.read damaged = .error (.undecodable ⟨0, [0xFF], "invalid start byte"⟩) := rfl
  have hbuiltin : jscpd ∈ Registry.builtin.analyzers := by simp [Registry.builtin]
  obtain ⟨demands, hentry, -, hraises⟩ := builtin_relies hbuiltin damaged
  refine ⟨⟨_, hread⟩, demands, hentry, ?_⟩
  rcases hraises _ hread with ⟨m, hm⟩ | ⟨d, hd, hunmet, -⟩
  · cases hm
  · exact ⟨d, hd, hunmet⟩

/-- The digit of a power writes no number, and nothing is looked up among words by a list. -/
example : ruff.read { stdout := "[\x7b\"location\": \x7b\"row\": \"²\"\x7d\x7d]" } =
    .error (.notNumber "²") := rfl

example : bearer.read { stdout := "\x7b\"warnings\": [\x7b\"severity\": []\x7d]\x7d" } =
    .error (.unhashable "list") := rfl

end CodeAudit.Analyzer
