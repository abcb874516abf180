import CodeAudit.Proofs.Analyzer.Printed.Entries
namespace CodeAudit.Analyzer
open Diagnostic Output Text

namespace Tsc

/-- A diagnostic before it is printed. -/
structure Diagnosis where
  file : String
  line : Nat
  col : Nat
  severity : Severity
  code : String
  message : String

namespace Diagnosis
variable (d : Diagnosis)

def text : String :=
  d.file ++ "(" ++ Nat.repr d.line ++ "," ++ Nat.repr d.col ++ "): " ++ d.severity.text ++ " " ++
    d.code ++ ": " ++ d.message

def finding : Finding where
  file := d.file
  line := d.line
  col := some d.col
  tag := Tag.typeError.text
  rule := d.code
  severity := d.severity
  message := d.message

end Diagnosis

/-- A line and a column in brackets, with a colon after them. -/
def Marker (cs : List Char) : Prop :=
  ∃ line col, Number line ∧ Number col ∧ cs = '(' :: (line ++ ',' :: (col ++ [')', ':']))

/-- A line has the form of a diagnostic. -/
def Matches (cs : List Char) : Prop :=
  ∃ (file marker gap gap' number gap'' message : List Char) (severity : Severity),
    file ≠ [] ∧ Marker marker ∧ Gap gap ∧ Gap gap' ∧ Number number ∧ Gap gap'' ∧ message ≠ [] ∧
    cs = file ++ (marker ++ (gap ++ (severity.text.toList ++ (gap' ++ ('T' :: 'S' :: (number ++
      ':' :: (gap'' ++ message)))))))

/-- White space at its ends makes no line lose the form. -/
theorem Matches.of_cut {line cs : List Char} (h : Cut line cs) (hcs : Matches cs) :
    Matches line := by
  obtain ⟨front, back, rfl, -⟩ := h
  obtain ⟨file, marker, gap, gap', number, gap'', message, severity, hfile, hmarker, hgap, hgap',
    hnumber, hgap'', hmessage, rfl⟩ := hcs
  exact ⟨front ++ file, marker, gap, gap', number, gap'', message ++ back, severity,
    by simp [hfile], hmarker, hgap, hgap', hnumber, hgap'', by simp [hmessage], by simp⟩

theorem position?_marker {line col : List Char} (hline : Number line) (hcol : Number col)
    (rest : List Char) :
    position? ('(' :: (line ++ ',' :: (col ++ ')' :: ':' :: rest))) = some (line, col, rest) := by
  have hcomma := digits?_append hline (',' :: (col ++ ')' :: ':' :: rest)) (by simp; decide)
  have hclose := digits?_append hcol (')' :: ':' :: rest) (by simp; decide)
  simp only [position?, Option.bind_eq_bind, Option.bind_eq_some_iff]
  exact ⟨_, after?_eq_some_iff.mpr rfl, _, hcomma, _, after?_eq_some_iff.mpr rfl, _, hclose, _,
    after?_eq_some_iff.mpr rfl, rfl⟩

theorem marker_of_position {cs line col rest : List Char}
    (h : position? cs = some (line, col, rest)) :
    ∃ marker, Marker marker ∧ cs = marker ++ rest := by
  simp only [position?, Option.bind_eq_bind, Option.bind_eq_some_iff] at h
  obtain ⟨_, hopen, ⟨ds, _⟩, hline, _, hcomma, ⟨es, _⟩, hcol, _, hclose, heq⟩ := h
  cases heq
  obtain ⟨hline, hds⟩ := append_of_digits hline
  obtain ⟨hcol, hes⟩ := append_of_digits hcol
  simp only [after?_eq_some_iff] at hopen hcomma hclose
  refine ⟨_, ⟨ds, es, hds, hes, rfl⟩, ?_⟩
  rw [hopen, hline, hcomma, hcol, hclose]
  simp

theorem severity?_append (severity : Severity) (rest : List Char) :
    severity? (severity.text.toList ++ rest) = some (severity, rest) := by
  cases severity with
  | error => rfl
  | warning => rfl

theorem append_of_severity {cs rest : List Char} {severity : Severity}
    (h : severity? cs = some (severity, rest)) : cs = severity.text.toList ++ rest := by
  unfold severity? at h
  split at h
  · next herror =>
    cases h
    exact after?_eq_some_iff.mp herror
  · obtain ⟨_, hwarning, heq⟩ := Option.map_eq_some_iff.mp h
    cases heq
    exact after?_eq_some_iff.mp hwarning

theorem matches_of_report {cs : List Char} {report : Report} (h : report? cs = some report) :
    Matches cs := by
  obtain ⟨⟨file, form⟩, hshortest, -⟩ := Option.map_eq_some_iff.mp h
  obtain ⟨hfile, rest, rfl, htail⟩ := append_of_shortest hshortest
  simp only [tail?, Option.bind_eq_bind, Option.bind_eq_some_iff] at htail
  obtain ⟨⟨line, col, _⟩, hposition, _, hgap, ⟨severity, _⟩, hseverity, _, hgap', _, hcode,
    ⟨number, _⟩, hnumber, _, hcolon, message, hmessage, -⟩ := htail
  obtain ⟨marker, hmarker, rfl⟩ := marker_of_position hposition
  obtain ⟨gap, hblank, rfl⟩ := gap_of_afterBlank hgap
  obtain rfl := append_of_severity hseverity
  obtain ⟨gap', hblank', rfl⟩ := gap_of_afterBlank hgap'
  obtain rfl := after?_eq_some_iff.mp hcode
  obtain ⟨rfl, hdigits⟩ := append_of_digits hnumber
  obtain rfl := after?_eq_some_iff.mp hcolon
  obtain ⟨gap'', rest, hblank'', rfl, hrest⟩ := gap_of_blanksThen hmessage
  refine ⟨file, marker, gap, gap', number, gap'', rest, severity, hfile, hmarker, hblank, hblank',
    hdigits, hblank'', ?_, by simp⟩
  rintro rfl
  cases hrest

theorem finding_of_other {cs : List Char} (h : ¬ Matches (trim cs)) : finding cs = .ok [] := by
  rw [finding]
  cases hreport : report? (trim cs) with
  | none => rfl
  | some report => exact absurd (matches_of_report hreport) h

/-- A diagnostic that is printed so that it can be told where its parts end. -/
structure Diagnosis.Printable (d : Diagnosis) : Prop where
  file : Plain d.file
  unmarked : ∀ marker, Marker marker → ¬ marker <:+: d.file.toList
  line : (Nat.repr d.line).length ≤ maxIntegerDigits
  col : (Nat.repr d.col).length ≤ maxIntegerDigits
  col_pos : 1 ≤ d.col
  code : ∃ number, Number number ∧ d.code.toList = 'T' :: 'S' :: number
  message : Plain d.message

namespace Diagnosis
variable {d : Diagnosis}

/-- What is printed after the file. -/
def rest (d : Diagnosis) : List Char :=
  '(' :: ((Nat.repr d.line).toList ++ ',' :: ((Nat.repr d.col).toList ++ ')' :: ':' :: ' ' ::
    (d.severity.text.toList ++ ' ' :: (d.code.toList ++ ':' :: ' ' :: d.message.toList))))

theorem toList_text (d : Diagnosis) : d.text.toList = d.file.toList ++ d.rest := by
  simp [text, rest]

theorem head_severity (severity : Severity) (rest : List Char) :
    ∀ c ∈ (severity.text.toList ++ rest).head?, isBlank c = false := by
  cases severity with
  | error =>
    rintro c ⟨⟩
    rfl
  | warning =>
    rintro c ⟨⟩
    rfl

theorem Printable.tail (hd : d.Printable) :
    tail? d.rest = some fun file => ⟨file, (Nat.repr d.line).toList, (Nat.repr d.col).toList,
      d.severity, d.code.toList, d.message.toList⟩ := by
  obtain ⟨number, hnumber, hcode⟩ := hd.code
  have hposition := position?_marker (number_repr d.line) (number_repr d.col)
    (' ' :: (d.severity.text.toList ++ ' ' :: (d.code.toList ++ ':' :: ' ' :: d.message.toList)))
  have hdigits := digits?_append hnumber (':' :: ' ' :: d.message.toList) (by simp; decide)
  have hmessage : blanksThen (fun rest => if rest.isEmpty then none else some rest)
      (' ' :: d.message.toList) = some d.message.toList := by
    rw [blanksThen_space (by simpa using hd.message.head []),
      if_neg (by simpa using hd.message.ne)]
  rw [rest]
  simp only [tail?, Option.bind_eq_bind, Option.bind_eq_some_iff]
  refine ⟨_, hposition, _, afterBlank?_space (head_severity _ _), _, severity?_append _ _, _,
    afterBlank?_space ?_, _, after?_eq_some_iff.mpr ?_, _, hdigits, _, after?_eq_some_iff.mpr rfl,
    _, hmessage, ?_⟩
  · rw [hcode]
    rintro c ⟨⟩
    rfl
  · rw [hcode]
    rfl
  · rw [hcode]
    rfl

/-- Inside the file no position can begin. -/
theorem Printable.unplaced (hd : d.Printable) {x y : List Char} (hsplit : d.file.toList = x ++ y)
    (hy : y ≠ []) : tail? (y ++ d.rest) = none := by
  cases htail : tail? (y ++ d.rest) with
  | none => rfl
  | some form =>
    exfalso
    simp only [tail?, Option.bind_eq_bind, Option.bind_eq_some_iff] at htail
    obtain ⟨⟨line, col, after⟩, hposition, -⟩ := htail
    obtain ⟨_, ⟨line, col, hline, hcol, rfl⟩, hmarker⟩ := marker_of_position hposition
    obtain ⟨c, y, rfl⟩ := List.exists_cons_of_ne_nil hy
    obtain ⟨rfl, hrest⟩ := List.cons.inj hmarker
    have hbracket : '(' ∉ line ++ ',' :: (col ++ [')', ':']) := by
      have hnone {cs : List Char} (hcs : Number cs) : '(' ∉ cs := fun h => by
        have hdigit := hcs.2 '(' h
        revert hdigit
        decide
      simp [hnone hline, hnone hcol]
    obtain ⟨back, rfl⟩ := prefix_of_not_mem hrest hbracket
    exact hd.unmarked _ ⟨line, col, hline, hcol, rfl⟩ ⟨x, back, by rw [hsplit]; simp⟩

theorem Printable.report (hd : d.Printable) :
    report? d.text.toList = some ⟨d.file.toList, (Nat.repr d.line).toList,
      (Nat.repr d.col).toList, d.severity, d.code.toList, d.message.toList⟩ := by
  rw [report?, toList_text, shortest_append hd.file.ne hd.tail
    fun x y hsplit _ hy => hd.unplaced hsplit hy]
  rfl

theorem Printable.trimmed (hd : d.Printable) : trim d.text.toList = d.text.toList := by
  have htrim := trim_append hd.file.ne hd.message.ne hd.file.trimmed hd.message.trimmed
    ('(' :: ((Nat.repr d.line).toList ++ ',' :: ((Nat.repr d.col).toList ++ ')' :: ':' :: ' ' ::
      (d.severity.text.toList ++ ' ' :: (d.code.toList ++ [':', ' '])))))
  simpa [toList_text, rest] using htrim

theorem Printable.isLine (hd : d.Printable) : IsLine d.text.toList := by
  obtain ⟨number, hnumber, hcode⟩ := hd.code
  have hseverity : IsLine d.severity.text.toList := by
    cases d.severity with
    | error => decide
    | warning => decide
  rw [toList_text, rest, hcode]
  simp only [isLine_append, isLine_cons]
  exact ⟨hd.file.isLine, rfl, (number_repr d.line).isLine, rfl, (number_repr d.col).isLine, rfl,
    rfl, rfl, hseverity, rfl, ⟨rfl, rfl, hnumber.isLine⟩, rfl, rfl, hd.message.isLine⟩

theorem Printable.found (hd : d.Printable) : Tsc.finding d.text.toList = .ok [d.finding] := by
  have hcol : above d.col = some (d.col : Int) := if_pos (Int.natCast_pos.mpr hd.col_pos)
  simp only [Tsc.finding, hd.trimmed, hd.report, digits_repr hd.line, digits_repr hd.col,
    String.ofList_toList]
  rw [finding, ← hcol]
  rfl

end Diagnosis

theorem read_printed {o : Output} {entries : List (Diagnosis ⊕ String)} (hstatus : o.status < 3)
    (hstdout : o.stdout = printed Diagnosis.text entries)
    (hprintable : ∀ d, .inl d ∈ entries → d.Printable)
    (hother : ∀ s, .inr s ∈ entries → IsLine s.toList ∧ ¬ Matches (trim s.toList)) :
    read o = .ok ((entries.filterMap Sum.getLeft?).map Diagnosis.finding) := by
  have hlines := isLine_of_entries (fun d hd => (hprintable d hd).isLine)
    fun s hs => (hother s hs).1
  have hnil : finding [] = .ok [] := rfl
  rw [read, if_neg (Int.not_le.mpr hstatus), hstdout, toList_printed,
    each_joinLines hnil hlines,
    each_entries (fun d hd => (hprintable d hd).found)
      fun s hs => finding_of_other (hother s hs).2]

end Tsc
end CodeAudit.Analyzer
