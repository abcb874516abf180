import CodeAudit.Proofs.Analyzer.Alarm
import CodeAudit.Proofs.Json.Blank
import CodeAudit.Proofs.Steps
namespace CodeAudit
open Output

/-- A list by itself or as the only field of a record. -/
def wholeOf (name : Option String) (xs : List Json) : Json :=
  match name with
  | none => .list xs
  | some name => .record [(name, .list xs)]

/-- How the values that an analyzer tells of stand in its output: as a list that it prints or writes
to its report, which may have a name, or as records, one a line. -/
inductive Carrier
  | printed (name : Option String)
  | reported (name : Option String)
  | lines
  deriving DecidableEq

/-- An output carries exactly some values. -/
def Carrier.Carries (o : Output) (xs : List Json) : Carrier → Prop
  | printed name => Json.parse o.stdout = .ok (wholeOf name xs)
  | reported name => ∃ bytes cs, o.files.lookup Analyzer.Jscpd.reportName = some bytes ∧
      Text.decode bytes = .ok cs ∧ Json.read (Text.unifyNewlines cs) = .ok (wholeOf name xs)
  | lines => ∃ records, Output.records o.stdout = .ok records ∧ xs = records.map .record

namespace Data

theorem records_append (xs ys : List Json) :
    (list (xs ++ ys) : Json).records = (list xs : Json).records ++ (list ys : Json).records :=
  List.filterMap_append

theorem records_map_record (fields : List (Fields Empty)) :
    (list (fields.map record) : Json).records = fields := by
  rw [records, List.filterMap_map]
  exact List.filterMap_some

end Data

namespace Output

theorem each_cons_eq_ok {α β : Type} {f : α → Except Fault (List β)} {x : α} {xs : List α}
    {ys : List β} :
    each f (x :: xs) = .ok ys ↔
      ∃ first rest, f x = .ok first ∧ each f xs = .ok rest ∧ ys = first ++ rest := by
  rw [each]
  cases f x with
  | error e => simp
  | ok first =>
    dsimp only
    rw [map_eq_ok]
    simp [eq_comm]

theorem each_map {α β γ : Type} (f : β → Except Fault (List γ)) (g : α → β) (xs : List α) :
    each f (xs.map g) = each (f ∘ g) xs := by
  induction xs with
  | nil => rfl
  | cons x xs ih =>
    rw [List.map_cons, each, each, ih]
    rfl

theorem each_append {α β : Type} {f : α → Except Fault (List β)} {xs ys : List α}
    {fs gs : List β} (hxs : each f xs = .ok fs) (hys : each f ys = .ok gs) :
    each f (xs ++ ys) = .ok (fs ++ gs) := by
  induction xs generalizing fs with
  | nil =>
    cases hxs
    exact hys
  | cons x xs ih =>
    obtain ⟨first, rest, hfirst, hrest, rfl⟩ := each_cons_eq_ok.mp hxs
    rw [List.cons_append, each_cons_eq_ok]
    exact ⟨first, rest ++ gs, hfirst, ih hrest, List.append_assoc ..⟩

/-- An output that is a document, or would be one but for a number, is not blank. -/
theorem silent_of_formed {o : Output} (h : Json.parse o.stdout ≠ .error .malformed) :
    o.silent = false := by
  cases hsilent : o.silent with
  | false => rfl
  | true => exact absurd (Json.read_of_isBlank hsilent) h

theorem silent_of_parse {o : Output} {v : Json} (h : Json.parse o.stdout = .ok v) :
    o.silent = false := silent_of_formed (by simp [h])

theorem read_parsed {o : Output} {v : Json} (h : Json.parse o.stdout = .ok v) (tool : String)
    (silent : Except Fault (List Finding)) (f : Json → Except Fault (List Finding)) :
    (if o.silent then silent else document tool o.stdout >>= f) = f v := by
  have hdocument : document tool o.stdout = .ok v := by rw [document, h]
  rw [if_neg (Bool.eq_false_iff.mp (silent_of_parse h)), hdocument]
  rfl

end Output

/-- An analyzer that reads each of the records that its output carries by itself. -/
def Analyzer.ReadsEach (a : Analyzer) (c : Carrier) (x : Alarm) : Prop :=
  ∃ f : Bool → Fields Empty → Except Fault (List Finding), ∀ o xs, c.Carries o xs →
    (c = .lines → x.raised o = false) →
      a.read o = (each (f o.licenses) (Data.list xs : Json).records).map .findings

namespace Analyzer.ReadsEach
variable {a : Analyzer} {x : Alarm} {read : Output → Except Fault (List Finding)}

/-- An analyzer that prints a document, in which `p` finds the list. -/
theorem of_printed (f : Bool → Fields Empty → Except Fault (List Finding)) {p : Json → Json}
    {tool : String} {silent : Output → Except Fault (List Finding)} {name : Option String}
    (ha : a.read = findings read)
    (hread : ∀ o, read o = if o.silent then silent o else
      document tool o.stdout >>= fun v => each (f o.licenses) (p v).records)
    (hp : ∀ xs, (p (wholeOf name xs)).records = (Data.list xs : Json).records) :
    a.ReadsEach (.printed name) x := by
  refine ⟨f, fun o xs hcarries _ => ?_⟩
  rw [ha, findings, hread, read_parsed hcarries, hp]

/-- An analyzer that prints its records one a line, unless nothing is printed. -/
theorem of_lines {f : Fields Empty → Except Fault (List Finding)} {status : Int → Bool}
    {stderr : String → Bool} {p : Output → Prop} [DecidablePred p] {m : Output → String}
    (ha : a.read = findings read)
    (hread : ∀ o, read o = if o.silent then (if p o then fault (m o) else pure [])
      else records o.stdout >>= each f)
    (hp : ∀ o, p o ↔ (status o.status && stderr o.stderr) = true) :
    a.ReadsEach .lines { status, stderr } := by
  refine ⟨fun _ => f, fun o xs hcarries hquiet => ?_⟩
  obtain ⟨rs, hrs, rfl⟩ := hcarries
  rw [ha, findings, hread, Data.records_map_record]
  cases hsilent : o.silent with
  | true =>
    have hnone : ¬ p o := by
      rw [hp]
      simpa [Alarm.raised, hsilent] using hquiet rfl
    rw [records_of_silent hsilent] at hrs
    cases hrs
    rw [if_pos rfl, if_neg hnone]
    rfl
  | false =>
    rw [if_neg Bool.false_ne_true, hrs]
    rfl

end Analyzer.ReadsEach

namespace Analyzer

theorem Ruff.readsItems : ReadsEach .ruff (.printed none) Ruff.alarm :=
  .of_printed (fun _ => finding) rfl (fun _ => rfl) (by intro; rfl)

theorem Ruff.readsDiagnostics : ReadsEach .ruff (.printed (some "diagnostics")) Ruff.alarm :=
  .of_printed (fun _ => finding) rfl (fun _ => rfl) (by intro; rfl)

theorem Mypy.readsLines : ReadsEach .mypy .lines Mypy.alarm :=
  .of_lines rfl (fun _ => rfl) (by simp)

theorem Eslint.readsItems : ReadsEach .eslint (.printed none) Eslint.alarm :=
  .of_printed (fun _ => fileFindings) rfl (fun _ => rfl) (by intro; rfl)

theorem Stylelint.readsItems : ReadsEach .stylelint (.printed none) Stylelint.alarm :=
  .of_printed (fun _ => fileFindings) rfl (fun _ => rfl) (by intro; rfl)

theorem Semgrep.readsResults : ReadsEach .semgrep (.printed (some "results")) Semgrep.alarm :=
  .of_printed (fun _ => finding) rfl (fun _ => rfl) (by intro; rfl)

theorem Bearer.readsWarnings : ReadsEach .bearer (.printed (some "warnings")) Bearer.alarm := by
  refine .of_printed (fun _ => itemFindings) rfl (fun _ => rfl) ?_
  rintro (_ | ⟨x, xs⟩)
  · rfl
  · rfl

theorem GolangciLint.readsIssues :
    ReadsEach .golangciLint (.printed (some "Issues")) GolangciLint.alarm :=
  .of_printed (fun _ => finding) rfl (fun _ => rfl) (by intro; rfl)

theorem Clippy.readsLines : ReadsEach .clippy .lines Clippy.alarm := by
  refine ⟨fun _ => finding, fun o xs hcarries hquiet => ?_⟩
  obtain ⟨rs, hrs, rfl⟩ := hcarries
  have hnone : ¬ failure ≤ o.status := by simpa [Alarm.raised, alarm] using hquiet rfl
  have hread : read o = each finding rs := by
    rw [read, if_neg hnone, hrs]
    rfl
  rw [Data.records_map_record]
  exact congrArg (Except.map Reading.findings) hread

theorem Sqlfluff.readsItems : ReadsEach .sqlfluff (.printed none) Sqlfluff.alarm :=
  .of_printed (fun _ => fileFindings) rfl (fun _ => rfl) (by intro; rfl)

theorem Trivy.readsResults : ReadsEach .trivy (.printed (some "Results")) Trivy.alarm :=
  .of_printed entryFindings rfl (fun _ => rfl) (by intro; rfl)

theorem Jscpd.readsDuplicates : ReadsEach .jscpd (.reported (some "duplicates")) Jscpd.alarm := by
  refine ⟨fun _ => pair, fun o xs hcarries _ => ?_⟩
  obtain ⟨bytes, cs, hfile, hdecode, hread⟩ := hcarries
  have hpairs : read o = each pair (Data.list xs : Json).records := by
    rw [read, hfile]
    dsimp only
    rw [hdecode]
    dsimp only
    rw [hread]
    rfl
  exact congrArg (Except.map Reading.findings) hpairs

theorem Typos.readsLines : ReadsEach .typos .lines Typos.alarm :=
  .of_lines rfl (fun _ => rfl) (by simp)

/-- How the built-in analyzers whose output is one list carry it, and when they fail without one. -/
def carriers : List (Analyzer × Carrier × Alarm) :=
  [(.ruff, .printed none, Ruff.alarm), (.ruff, .printed (some "diagnostics"), Ruff.alarm),
   (.mypy, .lines, Mypy.alarm), (.eslint, .printed none, Eslint.alarm),
   (.stylelint, .printed none, Stylelint.alarm),
   (.semgrep, .printed (some "results"), Semgrep.alarm),
   (.bearer, .printed (some "warnings"), Bearer.alarm),
   (.golangciLint, .printed (some "Issues"), GolangciLint.alarm), (.clippy, .lines, Clippy.alarm),
   (.sqlfluff, .printed none, Sqlfluff.alarm), (.trivy, .printed (some "Results"), Trivy.alarm),
   (.jscpd, .reported (some "duplicates"), Jscpd.alarm), (.typos, .lines, Typos.alarm)]

theorem carriers_readsEach :
    ∀ entry ∈ carriers, entry.1.Heeds entry.2.2 ∧ entry.1.ReadsEach entry.2.1 entry.2.2 := by
  rw [carriers]
  simp only [List.forall_mem_cons]
  exact ⟨⟨.of_heeded rfl Ruff.heeds, Ruff.readsItems⟩,
    ⟨.of_heeded rfl Ruff.heeds, Ruff.readsDiagnostics⟩,
    ⟨.of_heeded rfl Mypy.heeds, Mypy.readsLines⟩,
    ⟨.of_heeded rfl Eslint.heeds, Eslint.readsItems⟩,
    ⟨.of_heeded rfl Stylelint.heeds, Stylelint.readsItems⟩,
    ⟨.of_heeded rfl Semgrep.heeds, Semgrep.readsResults⟩,
    ⟨.of_heeded rfl Bearer.heeds, Bearer.readsWarnings⟩,
    ⟨.of_heeded rfl GolangciLint.heeds, GolangciLint.readsIssues⟩,
    ⟨.of_heeded rfl Clippy.heeds, Clippy.readsLines⟩,
    ⟨.of_heeded rfl Sqlfluff.heeds, Sqlfluff.readsItems⟩,
    ⟨.of_heeded rfl Trivy.heeds, Trivy.readsResults⟩,
    ⟨.of_heeded rfl Jscpd.heeds, Jscpd.readsDuplicates⟩,
    ⟨.of_heeded rfl Typos.heeds, Typos.readsLines⟩, nofun⟩

theorem each_of_read {a : Analyzer} {c : Carrier} {x : Alarm} (ha : a.Heeds x)
    {f : Bool → Fields Empty → Except Fault (List Finding)}
    (hreads : ∀ o xs, c.Carries o xs → (c = .lines → x.raised o = false) →
      a.read o = (each (f o.licenses) (Data.list xs : Json).records).map .findings)
    {o : Output} {xs : List Json} {fs : List Finding} (hxs : c.Carries o xs)
    (hfs : a.read o = .ok (.findings fs)) :
    each (f o.licenses) (Data.list xs : Json).records = .ok fs := by
  have hquiet : x.raised o = false := by
    cases hraised : x.raised o with
    | false => rfl
    | true =>
      obtain ⟨m, hm⟩ := ha.raised o hraised
      rw [hfs] at hm
      cases hm
  rw [hreads o xs hxs fun _ => hquiet] at hfs
  obtain ⟨_, heach, heq⟩ := map_eq_ok.mp hfs
  cases heq
  exact heach

/-- What an analyzer finds in two lists of values, one after the other, is what it finds in each:
values neither add to nor take from what others tell. Of outputs in lines, which may hold no value
at all, it has to be known that they raise no alarm. -/
theorem builtin_append {a : Analyzer} {c : Carrier} {x : Alarm} (hentry : (a, c, x) ∈ carriers)
    {o o₁ o₂ : Output} {xs ys : List Json} {fs gs : List Finding}
    (hxs : c.Carries o₁ xs) (hys : c.Carries o₂ ys) (hboth : c.Carries o (xs ++ ys))
    (hlicenses : o₁.licenses = o.licenses ∧ o₂.licenses = o.licenses)
    (hquiet : c = .lines → x.raised o = false) (hfs : a.read o₁ = .ok (.findings fs))
    (hgs : a.read o₂ = .ok (.findings gs)) : a.read o = .ok (.findings (fs ++ gs)) := by
  obtain ⟨hheeds, f, hreads⟩ := carriers_readsEach _ hentry
  have hfirst := each_of_read hheeds hreads hxs hfs
  have hsecond := each_of_read hheeds hreads hys hgs
  rw [hlicenses.1] at hfirst
  rw [hlicenses.2] at hsecond
  rw [hreads o _ hboth hquiet, Data.records_append, each_append hfirst hsecond]
  rfl

def Ruff.printed (stdout : String) : Output := { stdout, status := 1 }

theorem Ruff.read_both :
    ruff.read (printed "[\x7b\"code\": \"E501\"\x7d, 7, \x7b\"code\": \"S1\"\x7d]") =
      .ok (.findings [
        { file := "unknown", tag := Tag.format.text, rule := "E501", message := "" },
        { file := "unknown", tag := Tag.security.text, rule := "S1", message := "" }]) := by
  have hfirst : (Carrier.printed none).Carries (printed "[\x7b\"code\": \"E501\"\x7d, 7]")
      [.record [("code", .text "E501")], .int 7] := by rfl
  have hsecond : (Carrier.printed none).Carries (printed "[\x7b\"code\": \"S1\"\x7d]")
      [.record [("code", .text "S1")]] := by rfl
  have hboth : (Carrier.printed none).Carries
      (printed "[\x7b\"code\": \"E501\"\x7d, 7, \x7b\"code\": \"S1\"\x7d]")
      ([.record [("code", .text "E501")], .int 7] ++ [.record [("code", .text "S1")]]) := by rfl
  exact builtin_append List.mem_cons_self hfirst hsecond hboth ⟨rfl, rfl⟩ nofun (by rfl) (by rfl)

end Analyzer
end CodeAudit
