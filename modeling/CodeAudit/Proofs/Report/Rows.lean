import CodeAudit.Proofs.Path.Names
import CodeAudit.Proofs.Report.Grouping
import CodeAudit.Proofs.Report.Mentions
import Mathlib.Data.List.TakeWhile
namespace CodeAudit

namespace Text

theorem splitAt_append_cons (sep : Char) (xs ys : List Char) :
    splitAt sep (xs ++ sep :: ys) = splitAt sep xs ++ splitAt sep ys := by
  induction xs with
  | nil => simp [splitAt]
  | cons c xs ih =>
    rw [List.cons_append, splitAt, splitAt, ih]
    split
    · rfl
    · cases hs : splitAt sep xs with
      | nil => exact absurd hs (splitAt_ne_nil sep xs)
      | cons piece pieces => rfl

theorem length_splitAt (sep : Char) (cs : List Char) :
    (splitAt sep cs).length = cs.count sep + 1 := by
  induction cs with
  | nil => rfl
  | cons c cs ih =>
    rw [splitAt]
    by_cases hc : c = sep
    · rw [if_pos hc, List.length_cons, ih, hc, List.count_cons_self]
    · rw [if_neg hc, List.count_cons_of_ne hc, ← ih]
      cases hs : splitAt sep cs with
      | nil => exact absurd hs (splitAt_ne_nil sep cs)
      | cons piece pieces => rfl

/-- The first piece of a text is what stands in front of the first separator. -/
theorem splitAt_eq_cons (sep : Char) (cs : List Char) :
    splitAt sep cs = cs.takeWhile (· ≠ sep) :: (splitAt sep cs).tail := by
  induction cs with
  | nil => rfl
  | cons c cs ih =>
    rw [splitAt]
    by_cases hc : c = sep
    · simp [hc]
    · rw [if_neg hc, ih]
      simp [hc]

end Text

namespace Report.Markdown

/-- The rows of a text: what stands between its line feeds. -/
def rows (s : String) : List String := (Text.splitAt '\n' s.toList).map String.ofList

theorem length_rows (s : String) : (rows s).length = s.toList.count '\n' + 1 := by
  rw [rows, List.length_map, Text.length_splitAt]

theorem length_rows_eq_one_iff (s : String) : (rows s).length = 1 ↔ '\n' ∉ s.toList := by
  rw [length_rows, Nat.add_eq_right, List.count_eq_zero]

theorem rows_of_not_mem {s : String} (hs : '\n' ∉ s.toList) : rows s = [s] := by
  have htail : (Text.splitAt '\n' s.toList).tail = [] := by
    apply List.eq_nil_of_length_eq_zero
    rw [List.length_tail, Text.length_splitAt, List.count_eq_zero_of_not_mem hs]
  have hwhole : s.toList.takeWhile (· ≠ '\n') = s.toList := by
    have hall : ∀ c ∈ s.toList, decide (c ≠ '\n') = true :=
      fun c hc => decide_eq_true fun h => hs (h ▸ hc)
    exact List.takeWhile_eq_self_iff.mpr hall
  rw [rows, Text.splitAt_eq_cons, htail, hwhole, List.map_singleton, String.ofList_toList]

/-- The rows of joined lines are those of each of the lines. -/
theorem rows_intercalate {ls : List String} (hls : ls ≠ []) :
    rows ("\n".intercalate ls) = ls.flatMap rows := by
  induction ls with
  | nil => exact absurd rfl hls
  | cons line rest ih =>
    cases rest with
    | nil => simp
    | cons second rest =>
      have hrest := ih (List.cons_ne_nil second rest)
      rw [List.flatMap_cons, ← hrest, rows, String.intercalate_cons_cons, String.toList_append,
        String.toList_append]
      have hfeed : "\n".toList = ['\n'] := by decide
      rw [hfeed, List.append_assoc, List.singleton_append, Text.splitAt_append_cons,
        List.map_append]
      rfl

theorem isBullet_iff {line : String} :
    isBullet line = true ↔ ['-', ' ', '*', '*', '['] <+: line.toList :=
  List.isPrefixOf_iff_prefix

/-- The first row of a text begins as a bullet if the text does. -/
theorem isBullet_head (s : String) :
    isBullet (String.ofList (s.toList.takeWhile (· ≠ '\n'))) = isBullet s := by
  have hmark : ∀ c ∈ ['-', ' ', '*', '*', '['], decide (c ≠ '\n') = true := by simp
  rw [Bool.eq_iff_iff, isBullet_iff, isBullet_iff, String.toList_ofList]
  constructor
  · intro h
    exact h.trans (List.takeWhile_prefix _)
  · intro h
    obtain ⟨rest, hrest⟩ := h
    rw [← hrest, List.takeWhile_append_of_pos hmark]
    exact List.prefix_append _ _

/-- The rows of lines in which no line begins. -/
def strays (ls : List String) : List String := ls.flatMap fun line => (rows line).tail

theorem countP_rows (s : String) :
    (rows s).countP isBullet = (if isBullet s then 1 else 0) + (rows s).tail.countP isBullet := by
  have hrows : rows s = String.ofList (s.toList.takeWhile (· ≠ '\n')) :: (rows s).tail := by
    rw [rows, Text.splitAt_eq_cons, List.map_cons, List.tail_cons]
  rw [hrows, List.countP_cons, isBullet_head, List.tail_cons, Nat.add_comm]

/-- The rows of lines that begin as bullets are the lines that do, and the strays. -/
theorem countP_flatMap_rows (ls : List String) :
    (ls.flatMap rows).countP isBullet =
      (ls.filter isBullet).length + (strays ls).countP isBullet := by
  induction ls with
  | nil => rfl
  | cons line rest ih =>
    have hstrays : strays (line :: rest) = (rows line).tail ++ strays rest := rfl
    rw [List.flatMap_cons, List.countP_append, ih, countP_rows, List.filter_cons, hstrays,
      List.countP_append]
    split
    · rw [List.length_cons]
      omega
    · omega

/-- The line for a warning. -/
def warningLine (w : String) : String := "- **[WARN]** " ++ w

variable (r : Report)

theorem rows_pageText : rows (pageText r) = (page r).flatMap rows := by
  obtain ⟨above, hlines⟩ := page_tally r
  exact rows_intercalate (by simp [hlines])

theorem rows_within_page {line : String} (hl : line ∈ page r) :
    rows line <:+: rows (pageText r) := by
  obtain ⟨above, below, hlines⟩ := List.append_of_mem hl
  rw [rows_pageText, hlines, List.flatMap_append, List.flatMap_cons]
  exact ⟨above.flatMap rows, below.flatMap rows, by rw [List.append_assoc]⟩

theorem bullet_mem_page {f : Finding} (hf : f ∈ r.findings.map (·.2)) : bulletLine f ∈ page r := by
  have hsome : (r.findings.map (·.2)).isEmpty = false := by simpa using List.ne_nil_of_mem hf
  have hsection : bulletLine f ∈ findingsLines (r.findings.map (·.2)) := by
    have hbullets : bulletLine f ∈ (findingsLines (r.findings.map (·.2))).filter isBullet := by
      rw [findingsLines_bullets]
      exact List.mem_map_of_mem (List.mem_mergeSort.mpr hf)
    exact (List.mem_filter.mp hbullets).1
  have hbody : bulletLine f ∈ bodyLines (r.findings.map (·.2)) r.warnings := by
    rw [bodyLines, hsome, Bool.false_and, if_neg Bool.false_ne_true, if_neg Bool.false_ne_true]
    exact List.mem_append_left _ hsection
  rw [page]
  exact List.mem_append_left _ (List.mem_append_right _ hbody)

theorem digits_not_feed (n : Nat) : '\n' ∉ Nat.toDigits 10 n := by
  intro h
  exact absurd (Nat.isDigit_of_mem_toDigits (by decide) (by decide) h) (by decide)

theorem integer_not_feed (i : Int) : '\n' ∉ (integerText i).toList := by
  have hdigits := digits_not_feed i.natAbs
  rw [integerText]
  split
  · simpa using hdigits
  · simpa using hdigits

/-- A finding is one row exactly if its tag, its rule and its message have no line feed. -/
theorem bullet_row_iff (f : Finding) : (rows (bulletLine f)).length = 1 ↔
    '\n' ∉ f.tag.toList ∧ '\n' ∉ f.rule.toList ∧ '\n' ∉ f.message.toList := by
  have hline := integer_not_feed f.line
  rw [length_rows_eq_one_iff, bulletLine]
  cases hcol : f.col with
  | none => simp [hline]
  | some col =>
    have hcol := integer_not_feed col
    simp [hline, hcol]

example : rows (bulletLine { file := "a.py", rule := "r", message := "one\n- **[X]** two" }) =
    ["- **[LINTER]** \x60r\x60 one", "- **[X]** two (line 0)"] := by decide

theorem warning_row_iff (w : String) : (rows (warningLine w)).length = 1 ↔ '\n' ∉ w.toList := by
  rw [length_rows_eq_one_iff, warningLine]
  simp

theorem title_not_feed (count : Nat) : '\n' ∉ (title count).toList := by
  have hdigits := digits_not_feed count
  rw [title]
  split
  · simpa using hdigits
  · simpa using hdigits

/-- The rows of the section over findings that begin as bullets are as many as the findings, and
those that stray there from the text of a finding or the name of its file. -/
theorem countP_findingsLines (fs : List Finding) :
    ((findingsLines fs).flatMap rows).countP isBullet =
      fs.length + (strays (findingsLines fs)).countP isBullet := by
  rw [countP_flatMap_rows, findingsLines_bullets, List.length_map, List.length_mergeSort]

theorem findingsLines_strays (fs : List Finding) :
    (strays (findingsLines fs)).countP isBullet = 0 ↔ ∀ f ∈ fs,
      (∀ row ∈ (rows (heading f.file)).tail, isBullet row = false) ∧
        ∀ row ∈ (rows (bulletLine f)).tail, isBullet row = false := by
  have hblank : (rows "").tail = [] := rfl
  have htitle : (rows (title fs.length)).tail = [] := by
    rw [rows_of_not_mem (title_not_feed _)]
    rfl
  have hfile (file : String) :
      (∀ row ∈ strays (fileLines fs file), isBullet row = false) ↔
        (∀ row ∈ (rows (heading file)).tail, isBullet row = false) ∧
          ∀ f ∈ fs, f.file = file → ∀ row ∈ (rows (bulletLine f)).tail, isBullet row = false := by
    rw [fileLines, strays, List.forall_mem_flatMap]
    simp only [List.forall_mem_cons, List.forall_mem_append, List.forall_mem_map, hblank,
      mem_inFile, true_and, List.not_mem_nil, false_imp_iff, implies_true, and_true, and_imp]
  have hsection : strays (findingsLines fs) =
      (files fs).flatMap fun file => strays (fileLines fs file) := by
    rw [findingsLines, strays, List.flatMap_cons, List.flatMap_cons, htitle, hblank,
      List.nil_append, List.nil_append, List.flatMap_assoc]
    rfl
  rw [hsection, List.countP_eq_zero, List.forall_mem_flatMap]
  simp only [Bool.not_eq_true, hfile, mem_files]
  constructor
  · intro h f hf
    obtain ⟨hheading, hbullets⟩ := h f.file ⟨f, hf, rfl⟩
    exact ⟨hheading, hbullets f hf rfl⟩
  · intro h file hfile
    obtain ⟨f, hf, rfl⟩ := hfile
    exact ⟨(h f hf).1, fun g hg _ => (h g hg).2⟩

theorem findingsLines_within_page (hfs : r.findings ≠ []) :
    (findingsLines (r.findings.map (·.2))).flatMap rows <:+: rows (pageText r) := by
  have hsome : (r.findings.map (·.2)).isEmpty = false := by simpa using hfs
  rw [rows_pageText, page, bodyLines, hsome, Bool.false_and, if_neg Bool.false_ne_true,
    if_neg Bool.false_ne_true, ← footer_eq]
  refine ⟨(header r).flatMap rows, ((if r.warnings.isEmpty then [] else
    warningsSection r.warnings) ++ footer r).flatMap rows, ?_⟩
  simp only [List.flatMap_append, List.append_assoc]

theorem rows_warnings (hws : r.warnings ≠ []) :
    ∃ above, rows (pageText r) = above ++ ["---", "", "## Warnings", ""] ++
      (r.warnings.flatMap (fun w => rows (warningLine w)) ++ "" :: (footer r).flatMap rows) := by
  have hsome : r.warnings.isEmpty = false := by simpa using hws
  let fs := r.findings.map (·.2)
  have hbody : bodyLines fs r.warnings =
      (if fs.isEmpty then [] else findingsLines fs) ++ warningsSection r.warnings := by
    rw [bodyLines, hsome, Bool.and_false, if_neg Bool.false_ne_true, if_neg Bool.false_ne_true]
  have hheading : ["---", "", "## Warnings", ""].flatMap rows = ["---", "", "## Warnings", ""] :=
    rfl
  have hblank : [""].flatMap rows = [""] := rfl
  refine ⟨(header r ++ if fs.isEmpty then [] else findingsLines fs).flatMap rows, ?_⟩
  rw [rows_pageText, page, hbody, warningsSection, ← footer_eq]
  simp only [List.flatMap_append, hheading, hblank, List.flatMap_map, List.append_assoc]
  rfl

/-- Up to the first blank row, only the rows of warnings count. -/
theorem takeWhile_warnings (rest below : List String) :
    (rest ++ "" :: below).takeWhile (· ≠ "") = rest.takeWhile (· ≠ "") := by
  rw [List.takeWhile_append]
  split
  · next h =>
    have hall : rest.takeWhile (· ≠ "") = rest :=
      (List.takeWhile_prefix _).eq_of_length h
    rw [hall, List.takeWhile_cons_of_neg (by simp), List.append_nil]
  · rfl

theorem flatMap_warnings {ws : List String} (hws : ∀ w ∈ ws, '\n' ∉ w.toList) :
    ws.flatMap (fun w => rows (warningLine w)) = ws.map warningLine := by
  have hrows : ws.map (fun w => rows (warningLine w)) = ws.map (fun w => [warningLine w]) := by
    apply List.map_congr_left
    intro w hw
    have hline : '\n' ∉ (warningLine w).toList := by simpa [warningLine] using hws w hw
    exact rows_of_not_mem hline
  rw [List.map_eq_flatMap, List.flatMap_def, List.flatMap_def, hrows]

/-- The warnings up to the first blank row are all of them if none has a line feed. -/
theorem length_takeWhile_warnings {ws : List String} (hws : ∀ w ∈ ws, '\n' ∉ w.toList) :
    ((ws.flatMap fun w => rows (warningLine w)).takeWhile (· ≠ "")).length = ws.length := by
  have hall : ∀ line ∈ ws.map warningLine, decide (line ≠ "") = true := by
    rw [List.forall_mem_map]
    intro w _
    simp [warningLine]
  rw [flatMap_warnings hws, List.takeWhile_eq_self_iff.mpr hall, List.length_map]

/-- What is read again from the rows of a report's text. A finding or a warning is one row exactly if
what it tells has no line feed, and a section counts what it holds unless rows stray into it. -/
structure Reread (r : Report) (t : String) : Prop where
  finding : ∀ f ∈ r.findings.map (·.2), ∃ line, bullet f = .ok line ∧ rows line <:+: rows t ∧
    ((rows line).length = 1 ↔
      '\n' ∉ f.tag.toList ∧ '\n' ∉ f.rule.toList ∧ '\n' ∉ f.message.toList)
  warning : ∀ w ∈ r.warnings, rows (warningLine w) <:+: rows t ∧
    ((rows (warningLine w)).length = 1 ↔ '\n' ∉ w.toList)
  findings : r.findings ≠ [] → ∃ printed, findingsSection (r.findings.map (·.2)) = .ok printed ∧
    let found := printed.flatMap rows
    found <:+: rows t ∧ found.head? = some (title r.findings.length) ∧
      r.findings.length ≤ found.countP isBullet ∧
      (found.countP isBullet = r.findings.length ↔ ∀ f ∈ r.findings.map (·.2),
        (∀ row ∈ (rows (heading f.file)).tail, isBullet row = false) ∧
        ∀ line, bullet f = .ok line → ∀ row ∈ (rows line).tail, isBullet row = false)
  warnings : r.warnings ≠ [] →
    let told := r.warnings.flatMap fun w => rows (warningLine w)
    ∃ above below, rows t = above ++ ["---", "", "## Warnings", ""] ++ below ∧
      below = told ++ "" :: (footer r).flatMap rows ∧
      below.takeWhile (· ≠ "") = told.takeWhile (· ≠ "") ∧
      ((∀ w ∈ r.warnings, '\n' ∉ w.toList) →
        (below.takeWhile (· ≠ "")).length = r.warnings.length)

theorem head_findingsLines (fs : List Finding) :
    ((findingsLines fs).flatMap rows).head? = some (title fs.length) := by
  rw [findingsLines, List.flatMap_cons, rows_of_not_mem (title_not_feed _)]
  rfl

theorem reread_pageText (hr : ∀ f ∈ r.findings.map (·.2), f.Legible) : Reread r (pageText r) where
  finding f hf := ⟨bulletLine f, (prints_bullet f).answers (hr f hf),
    rows_within_page r (bullet_mem_page r hf), bullet_row_iff f⟩
  warning w hw := ⟨rows_within_page r (warning_mem_page r hw), warning_row_iff w⟩
  findings hsome := by
    refine ⟨_, (prints_findingsSection _).answers hr, findingsLines_within_page r hsome, ?_⟩
    have hcount := countP_findingsLines (r.findings.map (·.2))
    have hhead := head_findingsLines (r.findings.map (·.2))
    rw [List.length_map] at hcount hhead
    refine ⟨hhead, by omega, ?_⟩
    have hzero : ((findingsLines (r.findings.map (·.2))).flatMap rows).countP isBullet =
        r.findings.length ↔
          (strays (findingsLines (r.findings.map (·.2)))).countP isBullet = 0 := by omega
    rw [hzero, findingsLines_strays]
    refine forall₂_congr fun f hf => and_congr_right fun _ => ?_
    rw [(prints_bullet f).answers (hr f hf)]
    simp only [Except.ok.injEq, forall_eq']
  warnings hsome := by
    intro told
    obtain ⟨above, hrows⟩ := rows_warnings r hsome
    refine ⟨above, _, hrows, rfl, takeWhile_warnings _ _, fun hnone => ?_⟩
    rw [takeWhile_warnings]
    exact length_takeWhile_warnings hnone

/-- A report is read again so, whatever it tells, unless a number in it is too long to be written. -/
theorem text_reread (r : Report) : (∃ t, text r = .ok t ∧ Reread r t) ∨
    text r = .error .numberUnwritable ∧ ∃ f ∈ r.findings.map (·.2), ¬ f.Legible := by
  by_cases hr : ∀ f ∈ r.findings.map (·.2), f.Legible
  · exact .inl ⟨_, (prints_text r).answers hr, reread_pageText r hr⟩
  · refine .inr ⟨(prints_text r).refuses hr, ?_⟩
    push Not at hr
    exact hr

end Report.Markdown
end CodeAudit
