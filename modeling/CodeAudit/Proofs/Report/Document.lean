import CodeAudit.Analyzer.Output
import CodeAudit.Proofs.Outcome.Legible
import CodeAudit.Proofs.Report.Grouping
import CodeAudit.Proofs.Report.Rules
namespace CodeAudit

namespace Report
variable {r : Report}

/-- The numbers that a report tells have no more digits than are converted. -/
structure Legible (r : Report) : Prop where
  finding : ∀ f ∈ r.findings.map (·.2), f.Legible
  count : Json.Legible (.int r.findings.length)

/-- A report of outcomes that are accepted from documents that were read is legible, unless there
are too many findings to count. -/
theorem legible_of_accepted
    (haccepted : ∀ o ∈ r.outcomes, ∃ s v, Json.parse s = .ok v ∧ Outcome.ofData v = .ok o)
    (hcount : Json.Legible (.int r.findings.length)) : r.Legible := by
  refine ⟨?_, hcount⟩
  intro f hf
  obtain ⟨⟨tool, f⟩, hmem, rfl⟩ := List.mem_map.mp hf
  obtain ⟨o, ho, hfo⟩ := List.mem_flatMap.mp hmem
  obtain ⟨g, hg, hsame⟩ := List.mem_map.mp hfo
  cases hsame
  obtain ⟨s, v, hread, hdata⟩ := haccepted o (List.mem_filter.mp ho).1
  exact Outcome.legible_ofData (Json.legible_of_read hread) hdata f hg

theorem length_findings_le {o : Outcome} (ho : o ∈ r.successes) :
    o.findings.length ≤ r.findings.length := by
  obtain ⟨before, after, hsplit⟩ := List.append_of_mem ho
  rw [findings, hsplit, List.flatMap_append, List.flatMap_cons, List.length_append,
    List.length_append, List.length_map]
  omega

namespace Sarif
open Json

theorem length_rules_le (fs : List Finding) : (rules fs).length ≤ fs.length := by
  induction fs with
  | nil => exact Nat.le_refl 0
  | cons f fs ih =>
    rw [rules, List.length_cons, List.length_cons]
    exact Nat.succ_le_succ ((List.length_filter_le _ _).trans ih)

theorem legible_region {f : Finding} (hf : f.Legible) : Json.Legible (region f) := by
  have hstart : Json.Legible (.int (if f.line = 0 then 1 else f.line)) := by
    split
    · exact legible_digit (by decide)
    · exact hf.line
  rw [region]
  cases hc : f.col with
  | none => simpa [Fields.names] using hstart
  | some col => simpa [Fields.names] using ⟨hstart, hf.column col hc⟩

theorem legible_location {f : Finding} (hf : f.Legible) : Json.Legible (location f) := by
  simpa [location, Fields.names] using legible_region hf

theorem legible_result {rs : List (String × String)} (tool : String) {f : Finding}
    (hindex : Json.Legible (.int (ruleIndex rs f.rule))) (hf : f.Legible) :
    Json.Legible (result rs tool f) := by
  simpa [result, Fields.names] using ⟨hindex, legible_location hf⟩

theorem legible_rule (id tag : String) : Json.Legible (rule id tag) := by
  simp [rule, Fields.names]

theorem legible_share {o : Outcome} (hcount : Json.Legible (.int o.findings.length)) :
    Json.Legible (share o) := by
  simpa [share, Fields.names] using hcount

theorem legible_properties (hr : r.Legible) : Json.Legible (properties r) := by
  have htotal : Json.Legible (totalDuration r) := by
    rw [totalDuration]
    split
    · exact legible_digit (by decide)
    · exact legible_float _
  have hshares : ∀ o ∈ r.successes, Json.Legible (share o) := by
    intro o ho
    exact legible_share (legible_count (length_findings_le ho) hr.count)
  rw [properties]
  cases hwarnings : r.warnings.isEmpty <;> cases hfix : r.fix <;>
    simpa [Fields.names, hwarnings, hfix] using ⟨htotal, hshares⟩

theorem legible_document (hr : r.Legible) : Json.Legible (document r) := by
  let rs := rules (r.findings.map (·.2))
  have hrules : ∀ p ∈ rs, Json.Legible (rule p.1 p.2) := fun p _ => legible_rule p.1 p.2
  have hresults : ∀ p ∈ r.findings, Json.Legible (result rs p.1 p.2) := by
    intro p hp
    have hmem : p.2 ∈ r.findings.map (·.2) := List.mem_map_of_mem hp
    have hcount : rs.length ≤ r.findings.length := by
      have hle := length_rules_le (r.findings.map (·.2))
      rwa [List.length_map] at hle
    have hindex : ruleIndex rs p.2.rule ≤ r.findings.length :=
      Nat.le_trans List.findIdx_le_length hcount
    exact legible_result p.1 (legible_count hindex hr.count) (hr.finding p.2 hmem)
  simp only [document, legible_record, legible_list, legible_text, Fields.names, List.map_cons,
    List.map_nil, List.forall_mem_cons, List.forall_mem_map, List.not_mem_nil, false_imp_iff,
    implies_true, true_and, and_true]
  exact ⟨by decide, by decide, ⟨by decide, by decide, hrules⟩, hresults, legible_properties hr⟩

theorem distinct_location (f : Finding) : Distinct (location f) := by
  have hregion : Distinct (region f) := by
    rw [region]
    cases f.col with
    | none => simp [Fields.names]
    | some col => simp [Fields.names]
  simpa [location, Fields.names] using hregion

theorem distinct_result (rs : List (String × String)) (tool : String) (f : Finding) :
    Distinct (result rs tool f) := by
  simpa [result, Fields.names] using distinct_location f

theorem distinct_properties (r : Report) : Distinct (properties r) := by
  have htotal : Distinct (totalDuration r) := by
    rw [totalDuration]
    split
    · trivial
    · trivial
  have hshares : ∀ o ∈ r.successes, Distinct (share o) := by
    intro o _
    simp [share, Fields.names]
  rw [properties]
  cases hwarnings : r.warnings.isEmpty <;> cases hfix : r.fix <;>
    simpa [Fields.names, hwarnings, hfix] using ⟨htotal, hshares⟩

theorem distinct_document (r : Report) : Distinct (document r) := by
  let rs := rules (r.findings.map (·.2))
  have hrules : ∀ p ∈ rs, Distinct (rule p.1 p.2) := fun p _ => by simp [rule, Fields.names]
  have hresults : ∀ p ∈ r.findings, Distinct (result rs p.1 p.2) :=
    fun p _ => distinct_result rs p.1 p.2
  simp only [document, distinct_record, distinct_list, distinct_text, Fields.names, List.map_cons,
    List.map_nil, List.forall_mem_cons, List.forall_mem_map, List.not_mem_nil, false_imp_iff,
    implies_true, true_and, and_true]
  exact ⟨by decide, by decide, ⟨by decide, by decide, hrules⟩, hresults, distinct_properties r⟩

/-- What is read from the text of a report is the document in everything but the doubles, of which
each is read back as a double that depends on it alone. -/
theorem exists_parse_text : ∃ f : Double → Double, ∀ (r : Report) (t : String), text r = .ok t →
    parse t = .ok (mapFloats f (document r)) := by
  obtain ⟨f, hf⟩ := exists_rereads
  refine ⟨f, fun r t ht => ?_⟩
  obtain ⟨hwritable, rfl⟩ := text_eq_ok.mp ht
  have hlegible : Json.Legible (document r) := (legible_iff _).mpr ⟨hwritable, distinct_document r⟩
  have hfeed : ∀ c ∈ ['\n'], isSpace c = true := List.forall_mem_singleton.mpr rfl
  have hread := read_written hf hlegible (.indented 2 0) hfeed
  rw [parse, String.toList_append, String.toList_ofList]
  exact hread

/-- If every integer in the document of a report can be written, its text is the document it
renders, and otherwise there is no text. Only numbers of findings and their count can be too long. -/
theorem text_reads_document : ∃ f : Double → Double, ∀ (r : Report) (tool : String),
    (writable (document r) = true → ∃ t, text r = .ok t ∧
      Output.document tool t = .ok (mapFloats f (document r))) ∧
    (writable (document r) = false → text r = .error .numberUnwritable) ∧
    (r.Legible → writable (document r) = true) := by
  obtain ⟨f, hf⟩ := exists_parse_text
  refine ⟨f, fun r tool => ⟨fun hw => ?_, text_refuses, fun hr => ?_⟩⟩
  · refine ⟨_, text_eq_ok.mpr ⟨hw, rfl⟩, ?_⟩
    rw [Output.document, hf r _ (text_eq_ok.mpr ⟨hw, rfl⟩)]
  · exact ((legible_iff _).mp (legible_document hr)).1

def endlessReport : Report where
  target := ⟨.root, ["repo"]⟩
  outcomes := [{ tool := "t", findings := [Markdown.endlessFinding] }]
  date := ⟨2025, 1, 2, 3, 4, 5⟩

/-- A finding on a line whose number is too long to be written leaves a report without a text. -/
theorem text_endless : text endlessReport = .error .numberUnwritable := by
  have hline : integerFits Markdown.endlessFinding.line = false := by
    rw [Bool.eq_false_iff]
    intro hfits
    have hlegible : Json.Legible (.int Markdown.endlessFinding.line) := by
      rw [Json.Legible]
      exact of_decide_eq_true hfits
    exact Markdown.endlessFinding_not_legible ⟨hlegible, fun _ hcol => nomatch hcol⟩
  have hne : Markdown.endlessFinding.line ≠ 0 := by
    rw [Markdown.endlessFinding]
    generalize Text.maxIntegerDigits = digits
    exact Int.natCast_ne_zero.mpr (Nat.pos_iff_ne_zero.mp (Nat.pow_pos (by decide)))
  have hfindings : endlessReport.findings = [("t", Markdown.endlessFinding)] := rfl
  apply text_refuses
  simp [document, hfindings, result, location, region, writable, writableItems, writableFields,
    hline, hne]

/-- A result with a character of each way to write one, as a program prints it. -/
def quotedText : String :=
  "\x7b\"tool\": \"probe\", \"findings\": [\x7b\"file\": \"a b.py\", \"line\": 12, " ++
    "\"rule\": \"r\\\\1\", \"message\": \"\\t\\\"\\u007f\\u2028\\ud834\\udd1e\\n\"\x7d]\x7d"

def quotedOutcome : Outcome where
  tool := "probe"
  findings := [{
    file := "a b.py"
    line := 12
    rule := "r\\1"
    message := "\t\"\x7f\u2028𝄞\n" }]

def quotedReport : Report where
  target := ⟨.root, ["repo"]⟩
  outcomes := [quotedOutcome]
  date := ⟨2025, 1, 2, 3, 4, 5⟩

private theorem quoted_accepted :
    ∃ v, Json.parse quotedText = .ok v ∧ Outcome.ofData v = .ok quotedOutcome := by
  have hread : (Json.parse quotedText).toOption.bind (fun v => (Outcome.ofData v).toOption) =
      some quotedOutcome := by
    decide +kernel
  obtain ⟨v, hparse, hdata⟩ := Option.bind_eq_some_iff.mp hread
  exact ⟨v, toOption_eq_some.mp hparse, toOption_eq_some.mp hdata⟩

theorem text_reads_document_quoted : ∃ (t : String) (v finding : Json),
    text quotedReport = .ok t ∧ Output.document "probe" t = .ok v ∧
      part? ["results"] v = some (.list [finding]) ∧
      at? ["message", "text"] finding = some (.text "\t\"\x7f\u2028𝄞\n") := by
  have hlegible : quotedReport.Legible := by
    refine legible_of_accepted (fun o ho => ?_) (legible_digit (by decide))
    obtain rfl := List.mem_singleton.mp ho
    exact ⟨quotedText, quoted_accepted⟩
  obtain ⟨f, hf⟩ := text_reads_document
  obtain ⟨hreads, -, hwritable⟩ := hf quotedReport "probe"
  obtain ⟨t, ht, hread⟩ := hreads (hwritable hlegible)
  exact ⟨t, _, _, ht, hread, rfl, rfl⟩

end Sarif

/-- What a text tells of a report in a format with so many findings. In Markdown it is the lines of
the report, in which a title and the last line state how many findings there are. In SARIF it is
read as the document of the report, but for its doubles, and lists as many results. -/
def States (r : Report) (count : Nat) (t : String) : ReportFormat → Prop
  | .markdown => ∃ lines, Markdown.lines r = .ok lines ∧ t = "\n".intercalate lines ∧
    (∀ n, Markdown.title n ∈ lines ↔ n = count ∧ 0 < count) ∧
    ∃ above, lines = above ++ ["---", "", Markdown.tally r count, ""]
  | .sarif => ∃ (f : Double → Double) (results : List Json),
    Json.parse t = .ok (Json.mapFloats f (Sarif.document r)) ∧
    Sarif.results? (Json.mapFloats f (Sarif.document r)) = some results ∧ results.length = count

/-- The text of a report in a format is that of its lines or of its document. -/
theorem render_states {format : ReportFormat} {t : String} (ht : r.render format = .ok t) :
    r.States r.findings.length t format := by
  cases format with
  | markdown =>
    obtain ⟨hlegible, rfl⟩ := (Markdown.prints_text r).eq_of_ok ht
    exact ⟨_, (Markdown.prints_lines r).answers hlegible, rfl, Markdown.title_mem_page r,
      Markdown.page_tally r⟩
  | sarif =>
    obtain ⟨f, hf⟩ := Sarif.exists_parse_text
    obtain ⟨results, hresults, hlength⟩ :=
      Option.map_eq_some_iff.mp (Sarif.results?_document f r)
    exact ⟨f, results, hf r t ht, hresults, hlength⟩

theorem States.ne_empty {count : Nat} {t : String} {format : ReportFormat}
    (h : r.States count t format) : t ≠ "" := by
  cases format with
  | markdown =>
    obtain ⟨lines, -, rfl, -, above, rfl⟩ := h
    intro hempty
    have hnil := congrArg String.toList hempty
    cases above with
    | nil => simp at hnil
    | cons first rest =>
      rw [String.intercalate_append_of_ne_nil (by simp) (by simp)] at hnil
      simp at hnil
  | sarif =>
    obtain ⟨f, results, hread, -⟩ := h
    rintro rfl
    cases hread

end Report
end CodeAudit
