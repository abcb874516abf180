import CodeAudit.Proofs.Analyzer.Printed.Tsc
import CodeAudit.Proofs.Analyzer.Printed.Vulture
namespace CodeAudit.Analyzer
open Diagnostic Output Text

/-- What tsc and vulture print a line each is read back as it was before it was printed, in order
and without anything else, whatever a message holds and whatever lines stand between. A file must
not hold what looks like the position behind it, and no number may have too many digits. -/
theorem reads_printed :
    (∀ (o : Output) (entries : List (Tsc.Diagnosis ⊕ String)), o.status < 3 →
      o.stdout = printed Tsc.Diagnosis.text entries →
      (∀ d, .inl d ∈ entries → d.Printable) →
      (∀ s, .inr s ∈ entries → IsLine s.toList ∧ ¬ Tsc.Matches (trim s.toList)) →
      tsc.read o =
        .ok (.findings ((entries.filterMap Sum.getLeft?).map Tsc.Diagnosis.finding))) ∧
    ∀ (o : Output) (entries : List (Vulture.Diagnosis ⊕ String)), o.status ≠ 2 →
      o.stdout = printed Vulture.Diagnosis.text entries →
      (∀ d, .inl d ∈ entries → d.Printable) →
      (∀ s, .inr s ∈ entries → IsLine s.toList ∧ ¬ Vulture.Matches s.toList) →
      vulture.read o =
        .ok (.findings ((entries.filterMap Sum.getLeft?).map Vulture.Diagnosis.finding)) := by
  refine ⟨fun o entries hstatus hstdout hprintable hother => ?_,
    fun o entries hstatus hstdout hprintable hother => ?_⟩
  · exact map_eq_ok.mpr ⟨_, Tsc.read_printed hstatus hstdout hprintable hother, rfl⟩
  · exact map_eq_ok.mpr ⟨_, Vulture.read_printed hstatus hstdout hprintable hother, rfl⟩

/-- A diagnostic with another one in its message, and one with brackets in its file. -/
def tscDiagnoses : List Tsc.Diagnosis :=
  [⟨"a.ts", 3, 7, .error, "TS2304", "b.ts(1,2): error TS1: c"⟩,
    ⟨"x (1).ts", 0, 1, .warning, "TS7", "(2"⟩]

private theorem tsc_printable : ∀ d ∈ tscDiagnoses, d.Printable := by
  have hnumber : Number ['2', '3', '0', '4'] ∧ Number ['7'] := by decide
  have hcomma {marker cs : List Char} (hm : Tsc.Marker marker) (h : marker <:+: cs) : ',' ∈ cs := by
    obtain ⟨line, col, -, -, rfl⟩ := hm
    exact h.subset (by simp)
  simp only [tscDiagnoses, List.forall_mem_cons]
  refine ⟨⟨⟨by decide, by decide, by decide⟩, fun m hm h => ?_, by decide, by decide, by decide,
    ⟨_, hnumber.1, rfl⟩, ⟨by decide, by decide, by decide⟩⟩,
    ⟨⟨by decide, by decide, by decide⟩, fun m hm h => ?_, by decide, by decide, by decide,
    ⟨_, hnumber.2, rfl⟩, ⟨by decide, by decide, by decide⟩⟩, nofun⟩
  · exact absurd (hcomma hm h) (by decide)
  · exact absurd (hcomma hm h) (by decide)

/-- A diagnostic whose message ends with another confidence, and one with colons in its message. -/
def vultureDiagnoses : List Vulture.Diagnosis :=
  [⟨"a.py", 3, "unused 'x' (60% confidence)", 90⟩, ⟨"b.py", 12, "y:4: z", 100⟩]

private theorem vulture_printable : ∀ d ∈ vultureDiagnoses, d.Printable := by
  have hcolon {line cs : List Char} (h : (':' :: (line ++ [':'])) <:+: cs) : ':' ∈ cs :=
    h.subset (by simp)
  simp only [vultureDiagnoses, List.forall_mem_cons]
  refine ⟨⟨⟨by decide, by decide, by decide⟩, fun line _ h => ?_, by decide,
    ⟨by decide, by decide, by decide⟩⟩,
    ⟨⟨by decide, by decide, by decide⟩, fun line _ h => ?_, by decide,
    ⟨by decide, by decide, by decide⟩⟩, nofun⟩
  · exact absurd (hcolon h) (by decide)
  · exact absurd (hcolon h) (by decide)

theorem reads_printed_nested :
    tsc.read { stdout := "Version 5\na.ts(3,7): error TS2304: b.ts(1,2): error TS1: c\n" ++
        "x (1).ts(0,1): warning TS7: (2" } =
      .ok (.findings (tscDiagnoses.map Tsc.Diagnosis.finding)) ∧
    vulture.read { stdout := "  done\na.py:3: unused 'x' (60% confidence) (90% confidence)\n" ++
        "b.py:12: y:4: z (100% confidence)" } =
      .ok (.findings (vultureDiagnoses.map Vulture.Diagnosis.finding)) := by
  have hversion : ¬ Tsc.Matches "Version 5".toList := by
    rintro ⟨file, marker, gap, gap', number, gap'', message, severity, -, hmarker, -, -, -, -, -, h⟩
    obtain ⟨line, col, -, -, rfl⟩ := hmarker
    have hmem : '(' ∈ "Version 5".toList := by simp [h]
    exact absurd hmem (by decide)
  have hdone : ¬ Vulture.Matches "  done".toList := by
    rintro ⟨file, line, gap, message, gap', confidence, back, -, -, -, -, -, -, -, h⟩
    have hmem : ':' ∈ "  done".toList := by simp [h]
    exact absurd hmem (by decide)
  constructor
  · refine reads_printed.1 _ (.inr "Version 5" :: tscDiagnoses.map .inl) (by decide) (by decide)
      (fun d hd => tsc_printable d (by simpa using hd)) fun s hs => ?_
    obtain rfl : s = "Version 5" := by simpa using hs
    exact ⟨by decide, fun h => hversion (h.of_cut (cut_trim _))⟩
  · refine reads_printed.2 _ (.inr "  done" :: vultureDiagnoses.map .inl) (by decide) (by decide)
      (fun d hd => vulture_printable d (by simpa using hd)) fun s hs => ?_
    obtain rfl : s = "  done" := by simpa using hs
    exact ⟨by decide, hdone⟩

end CodeAudit.Analyzer
