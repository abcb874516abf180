import CodeAudit.Proofs.Analyzer.Carried
import CodeAudit.Proofs.Analyzer.Printed.Entries
import CodeAudit.Proofs.Json.Cut
namespace CodeAudit.Output
open Text

section
variable {line cs : List Char}

def IsRecord (line : List Char) : Prop := ∃ fields, Json.read line = .ok (.record fields)

theorem isRecord_iff : IsRecord line ↔
    (match Json.read line with
    | .ok (.record _) => true
    | _ => false) = true := by
  constructor
  · rintro ⟨fields, hread⟩
    rw [hread]
  · intro h
    split at h
    · next fields hread => exact ⟨fields, hread⟩
    · cases h

instance : Decidable (IsRecord line) := decidable_of_iff _ isRecord_iff.symm

/-- A line has an integer of too many digits, before it is found to be no document. -/
def TooLong (line : List Char) : Prop :=
  ∃ digits, Json.read line = .error (.integerTooLong digits)

theorem tooLong_iff : TooLong line ↔
    (match Json.read line with
    | .error (.integerTooLong _) => true
    | _ => false) = true := by
  constructor
  · rintro ⟨digits, hread⟩
    rw [hread]
  · intro h
    split at h
    · next digits hread => exact ⟨digits, hread⟩
    · cases h

instance : Decidable (TooLong line) := decidable_of_iff _ tooLong_iff.symm

theorem IsRecord.cut (h : IsRecord line) (hcut : Cut line cs) : IsRecord cs := by
  obtain ⟨fields, hread⟩ := h
  exact ⟨fields, (Json.read_cut hcut (by simp [hread])).trans hread⟩

theorem TooLong.cut (h : TooLong line) (hcut : Cut line cs) : TooLong cs := by
  obtain ⟨digits, hread⟩ := h
  exact ⟨digits, (Json.read_cut hcut (by simp [hread])).trans hread⟩

/-- What stands before white space that a document has in strings alone. -/
def StartOf (front cs : List Char) : Prop :=
  ∃ c back, isBlank c = true ∧ Json.isSpace c = false ∧ cs = front ++ c :: back

/-- What stands behind such white space. -/
def EndOf (back cs : List Char) : Prop :=
  ∃ front c, isBlank c = true ∧ Json.isSpace c = false ∧ cs = front ++ c :: back

section
variable {front back before after : List Char}

theorem StartOf.not_isRecord (h : StartOf (before ++ front) cs) (hcs : IsRecord cs)
    (hbefore : before.all isBlank = true) : ¬ IsRecord front := by
  obtain ⟨c, back, hc, hspace, rfl⟩ := h
  have hcut : Cut (before ++ front ++ c :: back) (front ++ c :: back) :=
    ⟨before, [], by simp, hbefore, rfl⟩
  obtain ⟨fields, hread⟩ := hcs.cut hcut
  rintro ⟨fields', hfront⟩
  rw [Json.read_front hc hspace hread] at hfront
  cases hfront

theorem EndOf.not_isRecord (h : EndOf (back ++ after) cs) (hcs : IsRecord cs)
    (hafter : after.all isBlank = true) : ¬ IsRecord back := by
  obtain ⟨front, c, hc, hspace, rfl⟩ := h
  have hcut : Cut (front ++ c :: (back ++ after)) (front ++ c :: back) :=
    ⟨[], after, by simp, rfl, hafter⟩
  obtain ⟨fields, hread⟩ := hcs.cut hcut
  rintro ⟨fields', hback⟩
  exact Json.read_back hc hspace hread _ hback

theorem StartOf.not_blank (h : StartOf front cs) (hcs : IsRecord cs) :
    ¬ front.all isBlank = true := by
  obtain ⟨c, back, hc, hspace, rfl⟩ := h
  obtain ⟨fields, hread⟩ := hcs
  exact Json.not_isBlank_front hc hspace hread

theorem EndOf.not_blank (h : EndOf back cs) (hcs : IsRecord cs) :
    ¬ back.all isBlank = true := by
  obtain ⟨front, c, hc, hspace, rfl⟩ := h
  obtain ⟨fields, hread⟩ := hcs
  exact Json.not_isBlank_back hc hspace hread

end

/-- What is told of one line. -/
def recordIn (line : List Char) : Except Fault (List (Fields Empty)) := recordsIn [line]

theorem recordIn_congr (h : Json.read cs = Json.read line) : recordIn cs = recordIn line := by
  rw [recordIn, recordIn, recordsIn, recordsIn.eq_2 line, h]

theorem recordIn_of_read {fields : Fields Empty} (h : Json.read line = .ok (.record fields)) :
    recordIn line = .ok [fields] := by
  rw [recordIn, recordsIn, h]
  rfl

theorem recordIn_of_not (hrecord : ¬ IsRecord line) (hlong : ¬ TooLong line) :
    recordIn line = .ok [] := by
  rw [recordIn, recordsIn]
  split
  · next fields hread => exact absurd ⟨fields, hread⟩ hrecord
  · rfl
  · rfl
  · next digits hread => exact absurd ⟨digits, hread⟩ hlong

end

/-- Each line is read for itself. -/
theorem recordsIn_eq_each (lines : List (List Char)) : recordsIn lines = each recordIn lines := by
  induction lines with
  | nil => rfl
  | cons line lines ih =>
    have hskip : each recordIn lines = (each recordIn lines).map ([] ++ ·) := by
      cases each recordIn lines with
      | error e => rfl
      | ok found => rfl
    rw [each, recordIn, recordsIn, recordsIn, ih]
    split
    · rfl
    · exact hskip
    · exact hskip
    · rfl

/-- A record, and one way to write it without line feeds and carriage returns. -/
structure Record where
  text : String
  fields : Fields Empty
  reads : Json.parse text = .ok (.record fields)
  flat : '\n' ∉ text.toList ∧ '\r' ∉ text.toList

namespace Record
variable (r : Record)

/-- Nothing else that ends lines stands in the text of the record. -/
def Whole : Prop := IsLine r.text.toList

instance : Decidable r.Whole := inferInstanceAs (Decidable (IsLine r.text.toList))

theorem isRecord : IsRecord r.text.toList := ⟨r.fields, r.reads⟩

theorem not_isSpace {front back : List Char} {c : Char} (hc : isLineBreak c = true)
    (h : r.text.toList = front ++ c :: back) : Json.isSpace c = false := by
  have hmem : c ∈ r.text.toList := by simp [h]
  have hfeed : c ≠ '\n' := fun heq => r.flat.1 (heq ▸ hmem)
  have hreturn : c ≠ '\r' := fun heq => r.flat.2 (heq ▸ hmem)
  cases hspace : Json.isSpace c with
  | false => rfl
  | true =>
    simp only [Json.isSpace, Bool.or_eq_true, beq_iff_eq] at hspace
    rcases hspace with ((rfl | rfl) | rfl) | rfl
    · cases hc
    · cases hc
    · exact absurd rfl hfeed
    · exact absurd rfl hreturn

/-- The lines into which a record falls that is not whole. -/
theorem torn (h : ¬ r.Whole) : ∃ first inner last,
    stretches r.text.toList = first :: (inner ++ [last]) ∧
    StartOf first r.text.toList ∧ EndOf last r.text.toList := by
  obtain ⟨first, c, back, hfirst, hc, htext⟩ := exists_first_line h
  obtain ⟨front, c', last, hlast, hc', htext'⟩ := exists_last_line h
  have hcons : stretches r.text.toList = first :: stretches back := by
    rw [htext, stretches_append_cons hc, stretches_of_isLine hfirst, List.singleton_append]
  have hconcat : stretches r.text.toList = stretches front ++ [last] := by
    rw [htext', stretches_append_cons hc', stretches_of_isLine hlast]
  obtain ⟨inner, last', hinner⟩ :=
    (List.eq_nil_or_concat' (stretches back)).resolve_left (stretches_ne_nil back)
  rw [hinner] at hcons
  obtain rfl : last' = last := by
    have hboth : (first :: inner) ++ [last'] = stretches front ++ [last] :=
      hcons.symm.trans hconcat
    exact List.singleton_inj.mp (List.append_inj' hboth rfl).2
  exact ⟨first, inner, last', hcons,
    ⟨c, back, isBlank_of_isLineBreak hc, r.not_isSpace hc htext, htext⟩,
    front, c', isBlank_of_isLineBreak hc', r.not_isSpace hc' htext', htext'⟩

theorem exists_not_blank :
    ∃ line ∈ stretches r.text.toList, ¬ line.all isBlank = true := by
  by_cases hwhole : r.Whole
  · refine ⟨r.text.toList, by simp [stretches_of_isLine hwhole], fun hblank => ?_⟩
    obtain ⟨fields, hread⟩ := r.isRecord
    rw [Json.read_of_isBlank hblank] at hread
    cases hread
  · obtain ⟨first, inner, last, htorn, hfirst, -⟩ := r.torn hwhole
    exact ⟨first, by simp [htorn], hfirst.not_blank r.isRecord⟩

/-- Of a record that is not whole no line becomes a record when white space is cut off at the ends
of all that is printed. -/
theorem not_isRecord_of_bared (h : ¬ r.Whole) {lines lines' : List (List Char)}
    {before cs after : List Char}
    (hstretches : stretches r.text.toList = lines ++ (before ++ cs ++ after) :: lines')
    (hbefore : before.all isBlank = true) (hafter : after.all isBlank = true)
    (hlines : before ≠ [] → ∀ line ∈ lines, line.all isBlank = true)
    (hlines' : after ≠ [] → ∀ line ∈ lines', line.all isBlank = true) :
    before = [] ∧ after = [] ∨ ¬ IsRecord cs := by
  obtain ⟨first, inner, last, htorn, hfirst, hlast⟩ := r.torn h
  have hnotFirst : first ∈ lines → before = [] := by
    intro hmem
    by_contra hne
    exact hfirst.not_blank r.isRecord (hlines hne first hmem)
  have hnotLast : last ∈ lines' → after = [] := by
    intro hmem
    by_contra hne
    exact hlast.not_blank r.isRecord (hlines' hne last hmem)
  rw [htorn] at hstretches
  cases lines with
  | nil =>
    obtain ⟨rfl, rfl⟩ := List.cons.inj hstretches
    obtain rfl := hnotLast (by simp)
    rw [List.append_nil] at hfirst
    exact .inr (hfirst.not_isRecord r.isRecord hbefore)
  | cons line lines =>
    obtain ⟨rfl, hrest⟩ := List.cons.inj hstretches
    obtain rfl := hnotFirst (by simp)
    cases lines' using List.reverseRecOn with
    | nil =>
      obtain ⟨-, hsame⟩ := List.append_inj' hrest rfl
      rw [List.singleton_inj.mp hsame, List.nil_append] at hlast
      exact .inr (hlast.not_isRecord r.isRecord hafter)
    | append_singleton lines' line' =>
      have hrest' : inner ++ [last] = (lines ++ ([] ++ cs ++ after) :: lines') ++ [line'] := by
        rw [hrest]
        simp
      obtain ⟨-, hsame⟩ := List.append_inj' hrest' rfl
      exact .inl ⟨rfl, hnotLast (by simp [List.singleton_inj.mp hsame])⟩

end Record

/-- The lines that an entry is printed on. -/
def entryLines (e : Record ⊕ String) : List (List Char) :=
  stretches (Sum.elim Record.text id e).toList

/-- The lines of an entry that may look like records: for a record that is not whole those between
its first line and its last, which are none. -/
def strays : Record ⊕ String → List (List Char)
  | .inl r => (stretches r.text.toList).tail.dropLast
  | .inr s => stretches s.toList

/-- What is printed next to records is to be passed over. -/
structure Quiet (entries : List (Record ⊕ String)) : Prop where
  short : ∀ e ∈ entries, ∀ line ∈ entryLines e, ¬ TooLong (trim line)
  stray : ∀ e ∈ entries, ∀ line ∈ strays e, ¬ IsRecord line
  /-- Before the first record and after the last, where white space is cut off. -/
  outer : ∀ e ∈ entries.takeWhile Sum.isRight ++ entries.reverse.takeWhile Sum.isRight,
    ∀ line ∈ entryLines e, ¬ IsRecord (trim line)

theorem append_of_flatMap {α β : Type} {f : α → List β} {xs : List α} {front back : List β}
    {y : β} (h : xs.flatMap f = front ++ y :: back) : ∃ before x after front' back',
      xs = before ++ x :: after ∧ f x = front' ++ y :: back' ∧
        front = before.flatMap f ++ front' ∧ back = back' ++ after.flatMap f := by
  induction xs generalizing front with
  | nil => simp at h
  | cons x xs ih =>
    rw [List.flatMap_cons] at h
    have hlater {front' : List β} (hfront : front = f x ++ front')
        (hxs : xs.flatMap f = front' ++ y :: back) : ∃ before x' after front' back',
          x :: xs = before ++ x' :: after ∧ f x' = front' ++ y :: back' ∧
            front = before.flatMap f ++ front' ∧ back = back' ++ after.flatMap f := by
      obtain ⟨before, x', after, front'', back', rfl, hx, rfl, hback⟩ := ih hxs
      exact ⟨x :: before, x', after, front'', back', rfl, hx, by simp [hfront], hback⟩
    rcases List.append_eq_append_iff.mp h with ⟨front', hfront, hxs⟩ | ⟨rest, hx, hrest⟩
    · exact hlater hfront hxs
    · cases rest with
      | nil => exact @hlater [] (by simpa using hx.symm) (by simpa using hrest.symm)
      | cons z rest =>
        obtain ⟨rfl, hback⟩ := List.cons.inj hrest
        exact ⟨[], x, xs, front, rest, rfl, hx, by simp, hback⟩

theorem no_record_of_blank {entries : List (Record ⊕ String)}
    (h : ∀ line ∈ entries.flatMap entryLines, line.all isBlank = true) (r : Record) :
    .inl r ∉ entries := by
  intro hr
  obtain ⟨line, hline, hnot⟩ := r.exists_not_blank
  exact hnot (h line (List.mem_flatMap.mpr ⟨_, hr, hline⟩))

namespace Quiet
variable {entries : List (Record ⊕ String)} (h : Quiet entries)
include h

theorem not_tooLong {e : Record ⊕ String} (he : e ∈ entries) {line cs : List Char}
    (hline : line ∈ entryLines e) (hcut : Cut line cs) : ¬ TooLong cs := by
  intro hlong
  apply h.short e he line hline
  rw [← hcut.trim_eq]
  exact hlong.cut (cut_trim cs)

theorem passed {s : String} (hs : .inr s ∈ entries) :
    each recordIn (stretches s.toList) = .ok [] :=
  each_eq_nil fun line hline =>
    recordIn_of_not (h.stray _ hs line hline) (h.not_tooLong hs hline (.refl line))

/-- A record is told of if it is whole, and otherwise lost. -/
theorem told {r : Record} (hr : .inl r ∈ entries) : each recordIn (stretches r.text.toList) =
    .ok (if r.Whole then [r.fields] else []) := by
  by_cases hwhole : r.Whole
  · rw [stretches_of_isLine hwhole, if_pos hwhole, each, recordIn_of_read r.reads]
    rfl
  · obtain ⟨first, inner, last, htorn, hfirst, hlast⟩ := r.torn hwhole
    rw [if_neg hwhole]
    apply each_eq_nil
    intro line hline
    refine recordIn_of_not ?_ (h.not_tooLong hr hline (.refl line))
    rw [htorn, List.mem_cons, List.mem_append, List.mem_singleton] at hline
    rcases hline with rfl | hline | rfl
    · rw [← List.nil_append line] at hfirst
      exact hfirst.not_isRecord r.isRecord rfl
    · refine h.stray _ hr line ?_
      rw [strays, htorn]
      simpa using hline
    · rw [← List.append_nil line] at hlast
      exact hlast.not_isRecord r.isRecord rfl

/-- What stands on one side of no record is before the first or after the last. -/
theorem not_isRecord_trim {front back : List (Record ⊕ String)} {s : String}
    (hentries : entries = front ++ .inr s :: back)
    (hside : (∀ r, .inl r ∉ front) ∨ ∀ r, .inl r ∉ back) {line : List Char}
    (hline : line ∈ stretches s.toList) : ¬ IsRecord (trim line) := by
  have hright {others : List (Record ⊕ String)} (hnone : ∀ r, .inl r ∉ others) :
      ∀ e ∈ others, e.isRight = true := by
    intro e he
    cases e with
    | inl r => exact absurd he (hnone r)
    | inr s => rfl
  refine h.outer (.inr s) ?_ line hline
  rw [hentries, List.mem_append]
  rcases hside with hfront | hback
  · left
    rw [List.takeWhile_append_of_pos (hright hfront)]
    exact List.mem_append_right front List.mem_cons_self
  · right
    have hback' : ∀ e ∈ back.reverse, e.isRight = true :=
      fun e he => hright hback e (List.mem_reverse.mp he)
    rw [List.reverse_append, List.reverse_cons, List.append_assoc,
      List.takeWhile_append_of_pos hback']
    exact List.mem_append_right back.reverse List.mem_cons_self

/-- It makes no difference that white space is cut off at the ends of all that is printed. -/
theorem bared {line cs : List Char} (hbared : Bared (entries.flatMap entryLines) line cs) :
    recordIn cs = recordIn line := by
  obtain ⟨front, back, before, after, hlines, hline, hbefore, hafter, hfront, hback⟩ := hbared
  obtain ⟨es, e, es', lines, lines', hentries, he, rfl, rfl⟩ := append_of_flatMap hlines
  have hcut : Cut line cs := ⟨before, after, hline, hbefore, hafter⟩
  have hmem : line ∈ entryLines e := by simp [he]
  have hlong {ds : List Char} (hds : Cut line ds) : ¬ TooLong ds :=
    h.not_tooLong (by simp [hentries]) hmem hds
  by_cases hsame : before = [] ∧ after = []
  · rw [hline, hsame.1, hsame.2, List.nil_append, List.append_nil]
  suffices hpassed : ¬ IsRecord cs ∨ recordIn cs = recordIn line by
    rcases hpassed with hrecord | hpassed
    · rw [recordIn_of_not hrecord (hlong hcut),
        recordIn_of_not (fun hrecord' => hrecord (hrecord'.cut hcut)) (hlong (.refl line))]
    · exact hpassed
  cases e with
  | inr s =>
    have hside : (∀ r, .inl r ∉ es) ∨ ∀ r, .inl r ∉ es' := by
      by_cases hstart : before = []
      · have hend : after ≠ [] := fun hend => hsame ⟨hstart, hend⟩
        exact .inr (no_record_of_blank fun other hother =>
          hback hend other (List.mem_append_right _ hother))
      · exact .inl (no_record_of_blank fun other hother =>
          hfront hstart other (List.mem_append_left _ hother))
    have hrecord := h.not_isRecord_trim hentries hside hmem
    rw [← hcut.trim_eq] at hrecord
    exact .inl fun hcs => hrecord (hcs.cut (cut_trim cs))
  | inl r =>
    by_cases hwhole : r.Whole
    · have hread := r.reads
      have hline' : line = r.text.toList := by
        rw [entryLines, Sum.elim_inl, stretches_of_isLine hwhole] at hmem
        exact List.mem_singleton.mp hmem
      rw [Json.parse, ← hline'] at hread
      exact .inr (recordIn_congr (Json.read_cut hcut (by simp [hread])))
    · rw [hline] at he
      have hends := r.not_isRecord_of_bared hwhole he hbefore hafter
        (fun hne other hother => hfront hne other (List.mem_append_right _ hother))
        fun hne other hother => hback hne other (List.mem_append_left _ hother)
      exact .inl (hends.resolve_left hsame)

theorem each_entryLines : each recordIn (entries.flatMap entryLines) =
    .ok (((entries.filterMap Sum.getLeft?).filter (·.Whole)).map Record.fields) := by
  have htold (others : List (Record ⊕ String)) (hothers : ∀ e ∈ others, e ∈ entries) :
      each recordIn (others.flatMap entryLines) =
        .ok (((others.filterMap Sum.getLeft?).filter (·.Whole)).map Record.fields) := by
    induction others with
    | nil => rfl
    | cons e others ih =>
      obtain ⟨he, hrest⟩ := List.forall_mem_cons.mp hothers
      rw [List.flatMap_cons]
      cases e with
      | inl r =>
        refine (each_append (h.told he) (ih hrest)).trans ?_
        by_cases hwhole : r.Whole
        · simp [hwhole]
        · simp [hwhole]
      | inr s => exact each_append (h.passed he) (ih hrest)
  exact htold entries fun e he => he

end Quiet

/-- Of records that are printed a line each exactly those come back, in order, in whose texts
nothing else ends lines; the others are lost. -/
theorem records_printed {entries : List (Record ⊕ String)} (h : Quiet entries) :
    records (printed Record.text entries) =
      .ok (((entries.filterMap Sum.getLeft?).filter (·.Whole)).map Record.fields) := by
  by_cases hnone : entries = []
  · rw [hnone]
    rfl
  · have hlines : stretches (printed Record.text entries).toList = entries.flatMap entryLines := by
      rw [toList_printed, stretches_joinLines (by simpa using hnone), List.flatMap_map]
      rfl
    have hnil : recordIn [] = .ok [] := rfl
    rw [records, recordsIn_eq_each, each_trim hnil, hlines, h.each_entryLines]
    rw [hlines]
    exact fun line cs hbared => h.bared hbared

/-- A record, what looks like one behind other white space, a record with a line separator in its
text, and a list. -/
def recordEntries : List (Record ⊕ String) :=
  [.inl ⟨" \x7b\"a\": 1\x7d", [("a", .int 1)], rfl, by decide⟩, .inr "\u00a0\x7b\x7d",
    .inl ⟨"\x7b\"a\": \"x\u2028y\"\x7d", [("a", .text "x\u2028y")], rfl, by decide⟩,
    .inr "[1, 2]"]

theorem records_printed_torn :
    records " \x7b\"a\": 1\x7d\n\u00a0\x7b\x7d\n\x7b\"a\": \"x\u2028y\"\x7d\n[1, 2]" =
      .ok [[("a", .int 1)]] :=
  @records_printed recordEntries ⟨by decide, by decide, by decide⟩

end CodeAudit.Output
