import CodeAudit.Proofs.Analyzer.Alarm
import CodeAudit.Proofs.Analyzer.Pieces
import CodeAudit.Proofs.Steps
import CodeAudit.Proofs.Text.Lines
namespace CodeAudit
open Text

instance (cs : List Char) : Decidable (Diagnostic.Number cs) :=
  @instDecidableAnd _ _ _ (List.decidableBAll (isDecimal · = true) cs)

theorem Diagnostic.number_repr (n : Nat) : Number (Nat.repr n).toList := by
  rw [Nat.toList_repr]
  exact ⟨Nat.toDigits_ne_nil, fun c hc => isDecimal_of_asciiDigit (isAsciiDigit_toDigits hc)⟩

theorem Diagnostic.Number.isLine {cs : List Char} (h : Number cs) : IsLine cs := by
  intro c hc
  cases hbreak : isLineBreak c with
  | false => rfl
  | true =>
    have hblank := isBlank_of_isLineBreak hbreak
    rw [isBlank_of_isDigit (isDigit_of_isDecimal (h.2 c hc))] at hblank
    cases hblank

/-- A text on one line, with something in it and no white space at its ends. -/
structure Text.Plain (s : String) : Prop where
  ne : s.toList ≠ []
  isLine : IsLine s.toList
  trimmed : trim s.toList = s.toList

theorem Text.Plain.head {s : String} (h : Plain s) (rest : List Char) :
    ∀ c ∈ (s.toList ++ rest).head?, isBlank c = false := by
  intro c hc
  rw [List.head?_append_of_ne_nil _ h.ne] at hc
  exact head_of_trim h.trimmed c hc

namespace Output

theorem digits_repr {n : Nat} (hn : (Nat.repr n).length ≤ maxIntegerDigits) :
    digits (Nat.repr n).toList = .ok n := by
  have hlength : ¬ maxIntegerDigits < (Nat.repr n).toList.length := by
    rw [String.length_toList]
    exact Nat.not_lt.mpr hn
  obtain ⟨-, hdigits⟩ := Diagnostic.number_repr n
  rw [digits, readInteger_of_digits fun c hc => isDigit_of_isDecimal (hdigits c hc),
    List.takeWhile_eq_self_iff.mpr hdigits, List.dropWhile_eq_nil_iff.mpr hdigits, if_neg hlength,
    Nat.toList_repr, decimal?_toDigits]

section
variable {α : Type} {f : List Char → Except Fault (List α)}

/-- It makes no difference how lines are ended, as long as an empty line tells of nothing. -/
theorem each_splitLines (hnil : f [] = .ok []) (cs : List Char) :
    each f (splitLines cs) = each f (stretches cs) := by
  have hskip (lines : List (List Char)) : each f ([] :: lines) = each f lines := by
    rw [each, hnil]
    cases each f lines with
    | error e => rfl
    | ok found => rfl
  have hwhole (lines : List (List Char)) : lines.modifyHead ([].reverse ++ ·) = lines := by
    cases lines with
    | nil => rfl
    | cons line lines => rfl
  have hfrom (current cs : List Char) : each f (splitLinesFrom current cs) =
      each f ((stretches cs).modifyHead (current.reverse ++ ·)) := by
    fun_induction splitLinesFrom current cs with
    | case1 current hempty =>
      obtain rfl := List.isEmpty_iff.mp hempty
      exact (hskip []).symm
    | case2 current hempty =>
      show each f [current.reverse] = each f [current.reverse ++ []]
      rw [List.append_nil]
    | case3 current rest ih =>
      have hreturn : stretches ('\r' :: '\n' :: rest) = [] :: [] :: stretches rest := rfl
      rw [hreturn, List.modifyHead_cons, List.append_nil, each, each, ih, hwhole, hskip]
    | case4 current c rest _ hbreak ih =>
      rw [stretches_cons, if_pos hbreak, List.modifyHead_cons, List.append_nil, each, each, ih,
        hwhole]
    | case5 current c rest _ hbreak ih =>
      rw [stretches_cons, if_neg hbreak, ih, List.modifyHead_modifyHead]
      congr 2
      funext line
      simp
  rw [splitLines, hfrom, hwhole]

theorem each_congr {lines others : List (List Char)} (h : lines.map f = others.map f) :
    each f lines = each f others := by
  have hmap (lines : List (List Char)) : each f lines = each id (lines.map f) := by
    induction lines with
    | nil => rfl
    | cons line lines ih => rw [List.map_cons, each, each, ih, id]
  rw [hmap, hmap, h]

/-- Lines that tell of nothing may stand around others. -/
theorem each_margins {front lines back : List (List Char)}
    (hfront : ∀ line ∈ front, f line = .ok []) (hback : ∀ line ∈ back, f line = .ok []) :
    each f (front ++ (lines ++ back)) = each f lines := by
  induction front with
  | nil =>
    induction lines with
    | nil => exact each_eq_nil hback
    | cons line lines ih =>
      rw [List.nil_append] at ih ⊢
      rw [List.cons_append, each, each, ih]
  | cons line front ih =>
    obtain ⟨hline, hrest⟩ := List.forall_mem_cons.mp hfront
    rw [List.cons_append, each, hline, ih hrest]
    cases each f lines with
    | error e => rfl
    | ok found => rfl

/-- White space at the ends of a text may be cut off if no line tells of anything else then. -/
theorem each_trim (hnil : f [] = .ok []) {text : List Char}
    (hbared : ∀ line cs, Bared (stretches text) line cs → f cs = f line) :
    each f (splitLines (trim text)) = each f (stretches text) := by
  obtain ⟨front, lines, back, hlines, hfront, hback, hkept⟩ := bared_stretches_trim text
  have hnothing {line : List Char} (h : Bared (stretches text) line []) : f line = .ok [] :=
    (hbared line [] h).symm.trans hnil
  have hmap : lines.map f = (stretches (trim text)).map f := by
    rw [← List.forall₂_eq_eq_eq, List.forall₂_map_left_iff, List.forall₂_map_right_iff]
    exact hkept.imp fun line cs h => (hbared line cs h).symm
  rw [each_splitLines hnil, ← each_congr hmap, hlines]
  exact (each_margins (fun line h => hnothing (hfront line h))
    fun line h => hnothing (hback line h)).symm

section
variable {lines : List (List Char)} (hnil : f [] = .ok []) (hlines : ∀ line ∈ lines, IsLine line)
include hnil hlines

theorem each_joinLines : each f (splitLines (joinLines lines)) = each f lines := by
  by_cases hnone : lines = []
  · rw [hnone]
    rfl
  · rw [each_splitLines hnil, stretches_joinLines_of_isLine hnone hlines]

theorem each_trim_joinLines (hcut : ∀ line ∈ lines, ∀ cs, Cut line cs → f cs = f line) :
    each f (splitLines (trim (joinLines lines))) = each f lines := by
  by_cases hnone : lines = []
  · rw [hnone]
    rfl
  · have hstretches := stretches_joinLines_of_isLine hnone hlines
    rw [each_trim hnil, hstretches]
    rw [hstretches]
    exact fun line cs h => hcut line h.mem cs h.cut

end
end

/-- What an analyzer prints, a line each: diagnostics, and other texts among them. -/
def printed {δ : Type} (text : δ → String) (entries : List (δ ⊕ String)) : String :=
  "\n".intercalate (entries.map (Sum.elim text id))

theorem each_entries {δ α : Type} {f : List Char → Except Fault (List α)} {text : δ → String}
    {told : δ → α} {entries : List (δ ⊕ String)}
    (htold : ∀ d, .inl d ∈ entries → f (text d).toList = .ok [told d])
    (hother : ∀ s, .inr s ∈ entries → f s.toList = .ok []) :
    each f (entries.map fun e => (Sum.elim text id e).toList) =
      .ok ((entries.filterMap Sum.getLeft?).map told) := by
  induction entries with
  | nil => rfl
  | cons e entries ih =>
    have hrest := ih (fun d hd => htold d (List.mem_cons_of_mem e hd))
      fun s hs => hother s (List.mem_cons_of_mem e hs)
    rw [List.map_cons, each, hrest]
    cases e with
    | inl d =>
      have hfirst := htold d List.mem_cons_self
      rw [Sum.elim_inl, hfirst]
      rfl
    | inr s =>
      have hfirst := hother s List.mem_cons_self
      rw [Sum.elim_inr, id, hfirst]
      rfl

theorem toList_printed {δ : Type} (text : δ → String) (entries : List (δ ⊕ String)) :
    (printed text entries).toList =
      joinLines (entries.map fun e => (Sum.elim text id e).toList) := by
  rw [printed, String.toList_intercalate, List.map_map]
  rfl

theorem isLine_of_entries {δ : Type} {text : δ → String} {entries : List (δ ⊕ String)}
    (htext : ∀ d, .inl d ∈ entries → IsLine (text d).toList)
    (hother : ∀ s, .inr s ∈ entries → IsLine s.toList) :
    ∀ line ∈ entries.map fun e => (Sum.elim text id e).toList, IsLine line := by
  intro line hline
  obtain ⟨e, he, rfl⟩ := List.mem_map.mp hline
  cases e with
  | inl d => exact htext d he
  | inr s => exact hother s he

end Output
end CodeAudit
