import CodeAudit.Proofs.Analyzer.Dependency
import CodeAudit.Proofs.Json.Reread
namespace CodeAudit

/-- A finding about a license. -/
def Finding.isLicense (f : Finding) : Bool := f.tag == Tag.license.text

namespace Output

/-- Where an item's answer under one reading is what is kept of its answer under another, so it is
for all items. -/
theorem each_filter {α β : Type} {f g : α → Except Fault (List β)} {kept : β → Bool}
    (h : ∀ x, Ensures (fun ys => g x = .ok (ys.filter kept)) (f x)) (xs : List α) :
    Ensures (fun ys => each g xs = .ok (ys.filter kept)) (each f xs) := by
  induction xs with
  | nil => exact .ok rfl
  | cons x xs ih =>
    intro ys hys
    obtain ⟨first, rest, hfirst, hrest, rfl⟩ := each_cons_eq_ok.mp hys
    rw [each_cons_eq_ok]
    exact ⟨_, _, h x first hfirst, ih rest hrest, List.filter_append ..⟩

end Output

namespace Analyzer.Trivy
open Output

/-- What the licenses of an entry are reported as. -/
def entryLicenses (entry : Fields Empty) : Except Fault (List Finding) :=
  each (license (text entry ["Target"] "unknown")) (entry.get "Licenses").records

/-- Without licenses an entry yields nothing that is tagged as one. -/
theorem entryFindings_unlicensed (entry : Fields Empty) :
    Ensures (fun fs => fs.filter (·.isLicense) = []) (entryFindings false entry) := by
  refine (each_forall (vulnerability_tag _)).bind fun vulnerable hvulnerable => ?_
  refine (each_forall (misconfiguration_tag _)).bind fun misconfigured hmisconfigured => ?_
  refine (each_forall (secret_tag _)).bind fun secrets hsecrets => .ok ?_
  have htag {fs : List Finding} {t : Tag} (h : ∀ f ∈ fs, f.tag = t.text) (ht : t ≠ .license) :
      fs.filter (·.isLicense) = [] := filter_tag h ht
  rw [List.filter_append, List.filter_append, htag hvulnerable (by decide),
    htag hmisconfigured (by decide), htag hsecrets (by decide)]
  rfl

/-- With licenses an entry yields what it does without them, and then its licenses. -/
theorem entryFindings_licensed {entry : Fields Empty} {fs : List Finding} :
    entryFindings true entry = .ok fs ↔ ∃ found licensed,
      entryFindings false entry = .ok found ∧ entryLicenses entry = .ok licensed ∧
        fs = found ++ licensed := by
  have hlast : entryFindings true entry = entryFindings false entry >>= fun found =>
      entryLicenses entry >>= fun licensed => .ok (found ++ licensed) := by
    simp only [entryFindings, entryLicenses, if_true, Bool.false_eq_true, if_false, bind_assoc,
      pure_bind]
    rfl
  rw [hlast]
  simp only [bind_eq_ok, Except.ok.injEq, exists_and_left, eq_comm (a := fs)]

/-- The findings of an entry with licenses fall into those it has without them and its licenses. -/
theorem entryFindings_parts (entry : Fields Empty) :
    Ensures (fun fs => entryFindings false entry = .ok (fs.filter (!·.isLicense)) ∧
      entryLicenses entry = .ok (fs.filter (·.isLicense))) (entryFindings true entry) := by
  intro fs hfs
  obtain ⟨found, licensed, hfound, hlicensed, rfl⟩ := entryFindings_licensed.mp hfs
  have hnone := entryFindings_unlicensed entry found hfound
  have hall : ∀ f ∈ licensed, f.isLicense = true := by
    intro f hf
    exact beq_iff_eq.mpr (each_forall (license_tag _) licensed hlicensed f hf)
  rw [List.filter_append, List.filter_append, hnone, List.filter_eq_self.mpr hall,
    List.filter_eq_self.mpr fun f hf => by simpa using List.filter_eq_nil_iff.mp hnone f hf,
    List.filter_eq_nil_iff.mpr fun f hf => by simp [hall f hf], List.append_nil]
  exact ⟨hfound, hlicensed⟩

/-- What is read with licenses is read without them, as what is left when they are taken out. -/
theorem read_filter {o : Output} {fs : List Finding}
    (hfs : read { o with licenses := true } = .ok fs) :
    read { o with licenses := false } = .ok (fs.filter (!·.isLicense)) := by
  simp only [read, Output.silent] at hfs ⊢
  split at hfs
  · next hsilent =>
    rw [if_pos hsilent]
    split at hfs
    · cases hfs
    · next hquiet =>
      cases hfs
      rw [if_neg hquiet]
      rfl
  · next hsilent =>
    rw [if_neg hsilent]
    obtain ⟨report, hreport, heach⟩ := bind_eq_ok.mp hfs
    refine bind_eq_ok.mpr ⟨report, hreport, ?_⟩
    exact each_filter (fun entry fs hfs => (entryFindings_parts entry fs hfs).1) _ fs heach

theorem read_licenses {o : Output} {fs : List Finding}
    (hfs : read { o with licenses := true } = .ok fs) {report : Json}
    (hreport : Json.parse o.stdout = .ok report) :
    each entryLicenses (entries report) = .ok (fs.filter (·.isLicense)) := by
  have hparsed : Json.parse { o with licenses := true }.stdout = .ok report := hreport
  rw [read_report hparsed] at hfs
  exact each_filter (fun entry fs hfs => (entryFindings_parts entry fs hfs).2) _ fs hfs

/-- Asking for licenses adds findings and changes nothing else: whatever was printed, if it is read
with licenses it is read without them too, as what is left when the findings about licenses are
taken out. Those that are taken out are the licenses that the report tells of. -/
theorem read_unlicensed {o : Output} {reading : Reading}
    (hread : trivy.read { o with licenses := true } = .ok reading) :
    ∃ fs, reading = .findings fs ∧
      trivy.read { o with licenses := false } = .ok (.findings (fs.filter (!·.isLicense))) ∧
      ∀ report, Json.parse o.stdout = .ok report →
        each entryLicenses (entries report) = .ok (fs.filter (·.isLicense)) := by
  obtain ⟨fs, hfs, rfl⟩ := map_eq_ok.mp hread
  exact ⟨fs, rfl, congrArg (Except.map Reading.findings) (read_filter hfs),
    fun report hreport => read_licenses hfs hreport⟩

/-- A report of a license and of a secret after it. -/
def licensedReport : Json :=
  .record [("Results", .list [
    .record [("Target", .text "a"), ("Licenses", .list [.record [("Name", .text "MIT")]])],
    .record [("Target", .text "b"), ("Secrets", .list [.record [("RuleID", .text "key")]])]])]

theorem read_unlicensed_one :
    let o : Output := { stdout := Json.line licensedReport }
    let license : Finding :=
      { file := "a", tag := Tag.license.text, rule := "license/MIT",
        message := "File uses license MIT (category: unknown)" }
    let secret : Finding :=
      { file := "b", tag := Tag.secret.text, rule := "key", severity := .error,
        message := "None: None (match: ...)" }
    trivy.read { o with licenses := true } = .ok (.findings [license, secret]) ∧
      trivy.read { o with licenses := false } = .ok (.findings [secret]) := by
  intro o license secret
  have hreport : Json.parse { o with licenses := true }.stdout = .ok licensedReport :=
    Json.parse_line (by simp [licensedReport, Fields.names]) fun f => rfl
  have hfound : (each (entryFindings true) (entries licensedReport)).toOption =
    some [license, secret] := by decide +kernel
  have hread : trivy.read { o with licenses := true } = .ok (.findings [license, secret]) := by
    rw [trivy_read, read_report hreport]
    exact congrArg (Except.map _) (toOption_eq_some.mp hfound)
  obtain ⟨fs, hfs, hwithout, -⟩ := read_unlicensed hread
  cases hfs
  exact ⟨hread, hwithout⟩

end Analyzer.Trivy
end CodeAudit
