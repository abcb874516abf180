import CodeAudit.Proofs.Analyzer.Printed.Entries
namespace CodeAudit.Analyzer
open Diagnostic Output Text

namespace Vulture

/-- A diagnostic before it is printed. -/
structure Diagnosis where
  file : String
  line : Nat
  message : String
  confidence : Nat

namespace Diagnosis
variable (d : Diagnosis)

def text : String :=
  d.file ++ ":" ++ Nat.repr d.line ++ ": " ++ d.message ++ " (" ++ Nat.repr d.confidence ++
    "% confidence)"

def finding : Finding where
  file := d.file
  line := d.line
  tag := Tag.deadCode.text
  rule := "vulture/unused"
  message := d.message ++ " (" ++ Nat.repr d.confidence ++ "% confidence)"

end Diagnosis

/-- A line has the form of a diagnostic. -/
def Matches (cs : List Char) : Prop :=
  ∃ file line gap message gap' confidence back : List Char,
    file ≠ [] ∧ Number line ∧ Gap gap ∧ message ≠ [] ∧ Gap gap' ∧ Number confidence ∧
    back.all isBlank = true ∧
    cs = file ++ ':' :: (line ++ ':' :: (gap ++ (message ++ (gap' ++ '(' :: (confidence ++
      ("% confidence)".toList ++ back))))))

/-- White space at its ends makes no line lose the form. -/
theorem Matches.of_cut {line cs : List Char} (h : Cut line cs) (hcs : Matches cs) :
    Matches line := by
  obtain ⟨front, end', rfl, hfront, hend⟩ := h
  obtain ⟨file, line, gap, message, gap', confidence, back, hfile, hline, hgap, hmessage, hgap',
    hconfidence, hback, rfl⟩ := hcs
  exact ⟨front ++ file, line, gap, message, gap', confidence, back ++ end', by simp [hfile], hline,
    hgap, hmessage, hgap', hconfidence, by simp [hback, hend], by simp⟩

theorem append_of_confidence {cs confidence : List Char} (h : confidence? cs = some confidence) :
    Number confidence ∧ ∃ gap back, Gap gap ∧ back.all isBlank = true ∧
      cs = gap ++ '(' :: (confidence ++ ("% confidence)".toList ++ back)) := by
  simp only [confidence?, Option.bind_eq_bind, Option.bind_eq_some_iff] at h
  obtain ⟨_, hgap, _, hopen, ⟨ds, _⟩, hdigits, back, hclose, hback⟩ := h
  split at hback
  · next hblank =>
    cases hback
    obtain ⟨gap, hblanks, rfl⟩ := gap_of_afterBlank hgap
    obtain rfl := after?_eq_some_iff.mp hopen
    obtain ⟨rfl, hnumber⟩ := append_of_digits hdigits
    obtain rfl := after?_eq_some_iff.mp hclose
    exact ⟨hnumber, gap, back, hblanks, hblank, rfl⟩
  · cases hback

theorem append_of_tail {cs line message confidence : List Char}
    (h : tail? cs = some (line, message, confidence)) :
    Number line ∧ ∃ gap rest, Gap gap ∧ cs = ':' :: (line ++ ':' :: (gap ++ rest)) ∧
      longest confidence? rest = some (message, confidence) := by
  simp only [tail?, Option.bind_eq_bind, Option.bind_eq_some_iff] at h
  obtain ⟨_, hcolon, ⟨ds, _⟩, hdigits, _, hcolon', ⟨_, _⟩, hmessage, heq⟩ := h
  cases heq
  obtain rfl := after?_eq_some_iff.mp hcolon
  obtain ⟨rfl, hnumber⟩ := append_of_digits hdigits
  obtain rfl := after?_eq_some_iff.mp hcolon'
  obtain ⟨gap, rest, hgap, rfl, hlongest⟩ := gap_of_blanksThen hmessage
  exact ⟨hnumber, gap, rest, hgap, rfl, hlongest⟩

theorem matches_of_report {cs : List Char} {report : Report} (h : report? cs = some report) :
    Matches cs := by
  obtain ⟨⟨file, line, message, confidence⟩, hshortest, -⟩ := Option.map_eq_some_iff.mp h
  obtain ⟨hfile, rest, rfl, htail⟩ := append_of_shortest hshortest
  obtain ⟨hline, gap, rest, hgap, rfl, hlongest⟩ := append_of_tail htail
  obtain ⟨hmessage, rest, rfl, hclose⟩ := append_of_longest hlongest
  obtain ⟨hconfidence, gap', back, hgap', hback, rfl⟩ := append_of_confidence hclose
  exact ⟨file, line, gap, message, gap', confidence, back, hfile, hline, hgap, hmessage, hgap',
    hconfidence, hback, rfl⟩

theorem finding_of_other {cs : List Char} (h : ¬ Matches cs) : finding cs = .ok [] := by
  rw [finding]
  cases hreport : report? cs with
  | none => rfl
  | some report => exact absurd (matches_of_report hreport) h

/-- A diagnostic that is printed so that it can be told where its parts end. -/
structure Diagnosis.Printable (d : Diagnosis) : Prop where
  file : Plain d.file
  unmarked : ∀ line, Number line → ¬ (':' :: (line ++ [':'])) <:+: d.file.toList
  line : (Nat.repr d.line).length ≤ maxIntegerDigits
  message : Plain d.message

namespace Diagnosis
variable {d : Diagnosis}

/-- What is printed after the message. -/
def close (d : Diagnosis) : List Char :=
  ' ' :: '(' :: ((Nat.repr d.confidence).toList ++ "% confidence)".toList)

/-- What is printed after the file. -/
def rest (d : Diagnosis) : List Char :=
  ':' :: ((Nat.repr d.line).toList ++ ':' :: ' ' :: (d.message.toList ++ d.close))

theorem toList_text (d : Diagnosis) : d.text.toList = d.file.toList ++ d.rest := by
  simp [text, rest, close]

theorem confidence?_close (d : Diagnosis) :
    confidence? d.close = some (Nat.repr d.confidence).toList := by
  have hdigits := digits?_append (number_repr d.confidence) "% confidence)".toList
    (by simp; decide)
  simp only [confidence?, Option.bind_eq_bind, Option.bind_eq_some_iff]
  exact ⟨_, afterBlank?_space (by simp; decide), _, after?_eq_some_iff.mpr rfl, _, hdigits, [],
    after?_eq_some_iff.mpr rfl, rfl⟩

/-- No other confidence stands in the one that ends the line. -/
theorem longest_close (d : Diagnosis) : longest confidence? d.close = none := by
  refine longest_eq_none fun x y hxy hx => ?_
  cases hy : confidence? y with
  | none => rfl
  | some confidence =>
    exfalso
    obtain ⟨-, gap, back, hgap, -, rfl⟩ := append_of_confidence hy
    obtain ⟨c, x, rfl⟩ := List.exists_cons_of_ne_nil hx
    obtain ⟨e, w, hw⟩ := List.exists_cons_of_ne_nil (show x ++ gap ≠ [] by simp [hgap.1])
    rw [close, List.cons_append, ← List.append_assoc, hw, List.cons_append, List.cons.injEq,
      List.cons.injEq] at hxy
    obtain ⟨-, -, hxy⟩ := hxy
    have hmem : '(' ∈ (Nat.repr d.confidence).toList ++ "% confidence)".toList := by
      rw [hxy]
      simp
    rcases List.mem_append.mp hmem with hdigit | hend
    · have hdecimal := (number_repr d.confidence).2 '(' hdigit
      revert hdecimal
      decide
    · revert hend
      decide

theorem Printable.tail (hd : d.Printable) : tail? d.rest =
    some ((Nat.repr d.line).toList, d.message.toList, (Nat.repr d.confidence).toList) := by
  have hdigits := digits?_append (number_repr d.line)
    (':' :: ' ' :: (d.message.toList ++ d.close)) (by simp; decide)
  have hmessage : blanksThen (longest confidence?) (' ' :: (d.message.toList ++ d.close)) =
      some (d.message.toList, (Nat.repr d.confidence).toList) := by
    rw [blanksThen_space (hd.message.head d.close),
      longest_append hd.message.ne d.confidence?_close d.longest_close]
  rw [rest]
  simp only [tail?, Option.bind_eq_bind, Option.bind_eq_some_iff]
  exact ⟨_, after?_eq_some_iff.mpr rfl, _, hdigits, _, after?_eq_some_iff.mpr rfl, _, hmessage, rfl⟩

/-- Inside the file no line number can begin, not even at its end: digits between colons are
followed by white space. -/
theorem Printable.unplaced (hd : d.Printable) {x y : List Char} (hsplit : d.file.toList = x ++ y)
    (hy : y ≠ []) : tail? (y ++ d.rest) = none := by
  cases htail : tail? (y ++ d.rest) with
  | none => rfl
  | some parts =>
    exfalso
    obtain ⟨line, message, confidence⟩ := parts
    obtain ⟨hline, gap, after, hgap, hplace, -⟩ := append_of_tail htail
    obtain ⟨c, y, rfl⟩ := List.exists_cons_of_ne_nil hy
    rw [List.cons_append, List.cons.injEq] at hplace
    obtain ⟨rfl, hrest⟩ := hplace
    have hcolon : ':' ∉ line := fun h => by
      have hdigit := hline.2 ':' h
      revert hdigit
      decide
    obtain ⟨back, rfl⟩ := prefix_of_not_mem hrest hcolon
    rw [List.append_assoc, List.append_right_inj] at hrest
    cases back with
    | nil =>
      obtain ⟨-, hrest⟩ := List.cons.inj hrest
      obtain ⟨e, ds, hds⟩ := List.exists_cons_of_ne_nil (number_repr d.line).1
      obtain ⟨b, bs, hbs⟩ := List.exists_cons_of_ne_nil hgap.1
      rw [hds, hbs] at hrest
      obtain ⟨rfl, -⟩ := List.cons.inj hrest
      have hdigit := (number_repr d.line).2 e (by simp [hds])
      have hblank := List.all_eq_true.mp hgap.2 e (by simp [hbs])
      rw [isBlank_of_isDigit (isDigit_of_isDecimal hdigit)] at hblank
      cases hblank
    | cons e back =>
      obtain ⟨rfl, -⟩ := List.cons.inj hrest
      exact hd.unmarked line hline ⟨x, back, by rw [hsplit]; simp⟩

theorem Printable.report (hd : d.Printable) :
    report? d.text.toList = some ⟨d.file.toList, (Nat.repr d.line).toList, d.message.toList,
      (Nat.repr d.confidence).toList⟩ := by
  rw [report?, toList_text, shortest_append hd.file.ne hd.tail
    fun x y hsplit _ hy => hd.unplaced hsplit hy]
  rfl

theorem Printable.trimmed (hd : d.Printable) : trim d.text.toList = d.text.toList := by
  have htrim := trim_append hd.file.ne (List.cons_ne_nil ')' []) hd.file.trimmed (by decide)
    (':' :: ((Nat.repr d.line).toList ++ ':' :: ' ' :: (d.message.toList ++ ' ' :: '(' ::
      ((Nat.repr d.confidence).toList ++ "% confidence".toList))))
  simpa [toList_text, rest, close] using htrim

theorem Printable.isLine (hd : d.Printable) : IsLine d.text.toList := by
  have hend : IsLine "% confidence)".toList := by decide
  rw [toList_text, rest, close]
  simp only [isLine_append, isLine_cons]
  exact ⟨hd.file.isLine, rfl, (number_repr d.line).isLine, rfl, rfl, hd.message.isLine, rfl, rfl,
    (number_repr d.confidence).isLine, hend⟩

theorem Printable.found (hd : d.Printable) : Vulture.finding d.text.toList = .ok [d.finding] := by
  simp only [Vulture.finding, hd.report, digits_repr hd.line, String.ofList_toList]
  rfl

end Diagnosis

theorem read_printed {o : Output} {entries : List (Diagnosis ⊕ String)}
    (hstatus : o.status ≠ 2) (hstdout : o.stdout = printed Diagnosis.text entries)
    (hprintable : ∀ d, .inl d ∈ entries → d.Printable)
    (hother : ∀ s, .inr s ∈ entries → IsLine s.toList ∧ ¬ Matches s.toList) :
    read o = .ok ((entries.filterMap Sum.getLeft?).map Diagnosis.finding) := by
  have hlines := isLine_of_entries (fun d hd => (hprintable d hd).isLine)
    fun s hs => (hother s hs).1
  have hnil : finding [] = .ok [] := rfl
  rw [read, if_neg hstatus, hstdout, toList_printed,
    each_trim_joinLines hnil hlines ?_,
    each_entries (fun d hd => (hprintable d hd).found)
      fun s hs => finding_of_other (hother s hs).2]
  intro line hline cs hcut
  obtain ⟨e, he, rfl⟩ := List.mem_map.mp hline
  cases e with
  | inl d => rw [hcut.eq_of_trim (hprintable d he).trimmed]
  | inr s =>
    have hnone := (hother s he).2
    have hstill : ¬ Matches cs := fun hcs => hnone (.of_cut hcut hcs)
    exact (finding_of_other hstill).trans (finding_of_other hnone).symm

end Vulture
end CodeAudit.Analyzer
