import CodeAudit.Proofs.Analyzer.Carried
import CodeAudit.Proofs.Analyzer.WellFormed
import Mathlib.Data.List.Forall2
namespace CodeAudit

/-- A finding about something that the project depends on. -/
def Finding.isDependency (f : Finding) : Bool := f.tag == Tag.dependency.text

theorem Tag.ofText?_text (t : Tag) : ofText? t.text = some t := by
  cases t <;> rfl

/-- Among findings that are tagged in one way there are none that are tagged in another. -/
theorem filter_tag {fs : List Finding} {t t' : Tag} (h : ∀ f ∈ fs, f.tag = t.text) (ht : t ≠ t') :
    fs.filter (·.tag == t'.text) = [] := by
  have htexts : t.text ≠ t'.text := by
    intro htext
    have hsome : some t = some t' := by rw [← Tag.ofText?_text, ← Tag.ofText?_text, htext]
    exact ht (Option.some.inj hsome)
  rw [List.filter_eq_nil_iff]
  intro f hf
  rw [h f hf, beq_iff_eq]
  exact htexts

namespace Output

/-- Where what is kept of an item's yield answers to some parts of the item, one for one and in
order, what is kept of all answers to the parts of all. -/
theorem each_flatMap {α β γ : Type} {f : α → Except Fault (List β)} {R : γ → β → Prop}
    {parts : α → List γ} {kept : β → Bool}
    (h : ∀ x, Ensures (fun ys => List.Forall₂ R (parts x) (ys.filter kept)) (f x)) (xs : List α) :
    Ensures (fun ys => List.Forall₂ R (xs.flatMap parts) (ys.filter kept)) (each f xs) := by
  induction xs with
  | nil => exact .ok .nil
  | cons x xs ih =>
    rw [each]
    cases hx : f x with
    | error e => exact .error e
    | ok ys =>
      refine ih.map fun zs hzs => ?_
      rw [List.flatMap_cons, List.filter_append]
      exact List.rel_append (h x ys hx) hzs

/-- A text among fields ends in no white space. -/
theorem text_last {fields : Fields Empty} {names : List String} {fallback : String}
    (hfallback : ∀ c, fallback.toList.getLast? = some c → Text.isBlank c = false) {c : Char}
    (h : (text fields names fallback).toList.getLast? = some c) : Text.isBlank c = false := by
  rw [text] at h
  cases htext : text? fields names with
  | none =>
    rw [htext] at h
    exact hfallback c h
  | some s =>
    rw [htext] at h
    obtain ⟨name, -, hphrase⟩ := List.exists_of_findSome?_eq_some htext
    cases hvalue : fields.get name with
    | text t =>
      rw [hvalue, phrase?] at hphrase
      split at hphrase
      · cases hphrase
      · cases hphrase
        exact Text.strip_last h
    | _ =>
      rw [hvalue] at hphrase
      cases hphrase

end Output

namespace Analyzer.Trivy
open Output

theorem trivy_read (o : Output) : trivy.read o = (read o).map .findings := rfl

/-- The entries of a report. -/
def entries (report : Json) : List (Fields Empty) := (Fields.get report.fields "Results").records

theorem read_report {o : Output} {report : Json} (h : Json.parse o.stdout = .ok report) :
    read o = each (entryFindings o.licenses) (entries report) := by
  rw [read, read_parsed h]
  rfl

/-- The vulnerabilities of an entry, each with the target it is found in. -/
def entryVulnerabilities (entry : Fields Empty) : List (String × Fields Empty) :=
  (entry.get "Vulnerabilities").records.map (text entry ["Target"] "unknown", ·)

/-- The vulnerabilities that a report tells of, entry by entry. -/
def vulnerabilities (report : Json) : List (String × Fields Empty) :=
  (Fields.get report.fields "Results").records.flatMap entryVulnerabilities

/-- A finding is what a vulnerability in its target is reported as. -/
structure Tells (v : String × Fields Empty) (f : Finding) : Prop where
  reported : vulnerability v.1 v.2 = .ok [f]
  file : f.file = v.1
  line : f.line = 0
  tag : f.tag = Tag.dependency.text
  rule : f.rule = text v.2 ["VulnerabilityID"] "unknown-cve"

theorem vulnerability_tells (target : String) (item : Fields Empty) :
    Ensures (fun fs => List.Forall₂ Tells [(target, item)] (fs.filter (·.isDependency)))
      (vulnerability target item) := by
  intro fs hfs
  obtain ⟨severity, -, he⟩ := bind_eq_ok.mp hfs
  cases he
  exact .cons ⟨hfs, rfl, rfl, rfl, rfl⟩ .nil

theorem vulnerability_tag (target : String) (item : Fields Empty) :
    Ensures (∀ f ∈ ·, f.tag = Tag.dependency.text) (vulnerability target item) :=
  .after fun _ => .one rfl

theorem misconfiguration_tag (target : String) (item : Fields Empty) :
    Ensures (∀ f ∈ ·, f.tag = Tag.infra.text) (misconfiguration target item) :=
  .after fun _ => .after fun _ => .one rfl

theorem secret_tag (target : String) (item : Fields Empty) :
    Ensures (∀ f ∈ ·, f.tag = Tag.secret.text) (secret target item) :=
  .after fun _ => .one rfl

theorem license_tag (target : String) (item : Fields Empty) :
    Ensures (∀ f ∈ ·, f.tag = Tag.license.text) (license target item) :=
  .after fun _ => .one rfl

theorem filter_isDependency {fs : List Finding} {t : Tag} (h : ∀ f ∈ fs, f.tag = t.text)
    (ht : t ≠ .dependency) : fs.filter (·.isDependency) = [] := filter_tag h ht

/-- An entry yields a finding about a dependency for each of its vulnerabilities, and no others,
whatever else it tells of. -/
theorem entryFindings_tells (licenses : Bool) (entry : Fields Empty) :
    Ensures
      (fun fs => List.Forall₂ Tells (entryVulnerabilities entry) (fs.filter (·.isDependency)))
      (entryFindings licenses entry) := by
  let target := text entry ["Target"] "unknown"
  refine (each_flatMap (vulnerability_tells target) _).bind fun vulnerable htells => ?_
  refine (each_forall (misconfiguration_tag target)).bind fun misconfigured hmisconfigured => ?_
  refine (each_forall (secret_tag target)).bind fun secrets hsecrets => ?_
  have hfound : List.Forall₂ Tells (entryVulnerabilities entry)
      ((vulnerable ++ misconfigured ++ secrets).filter (·.isDependency)) := by
    rw [List.filter_append, List.filter_append, filter_isDependency hmisconfigured (by decide),
      filter_isDependency hsecrets (by decide), List.append_nil, List.append_nil]
    rw [entryVulnerabilities, List.map_eq_flatMap]
    exact htells
  apply Ensures.ite
  · refine (each_forall (license_tag target)).bind fun licensed hlicensed => .ok ?_
    rw [List.filter_append, filter_isDependency hlicensed (by decide), List.append_nil]
    exact hfound
  · exact .ok hfound

/-- The findings about dependencies are those of the vulnerabilities that a report tells of, one for
each and in their order. -/
theorem read_tells {o : Output} {report : Json} {fs : List Finding}
    (hreport : Json.parse o.stdout = .ok report) (hread : trivy.read o = .ok (.findings fs)) :
    List.Forall₂ Tells (vulnerabilities report) (fs.filter (·.isDependency)) := by
  obtain ⟨fs', hfs, he⟩ := map_eq_ok.mp hread
  cases he
  rw [read_report hreport] at hfs
  exact each_flatMap (entryFindings_tells o.licenses) _ _ hfs

/-- The targets of a report are read without white space at their ends. -/
theorem target_last {report : Json} {v : String × Fields Empty} (hv : v ∈ vulnerabilities report)
    {c : Char} (hc : v.1.toList.getLast? = some c) : Text.isBlank c = false := by
  obtain ⟨entry, -, hentry⟩ := List.mem_flatMap.mp hv
  obtain ⟨item, -, rfl⟩ := List.mem_map.mp hentry
  have hfallback : ∀ c, "unknown".toList.getLast? = some c → Text.isBlank c = false := by
    intro c hlast
    cases hlast
    decide
  exact text_last hfallback hc

end Analyzer.Trivy
end CodeAudit
