import CodeAudit.Proofs.Outcome.Legible
import CodeAudit.Proofs.Run.Consistent
import CodeAudit.Report.Format
namespace CodeAudit.Report

/-- A report on outcomes of which none has both findings and an error leaves no finding out. -/
theorem findings_length (r : Report) (hr : ∀ o ∈ r.outcomes, o.Consistent) :
    r.findings.length = r.outcomes.foldl (fun count o => count + o.findings.length) 0 := by
  have hsum (outcomes : List Outcome) (ho : ∀ o ∈ outcomes, o.Consistent) (count : Nat) :
      outcomes.foldl (fun count o => count + o.findings.length) count =
        count + ((outcomes.filter (·.succeeded)).flatMap fun o =>
          o.findings.map fun f => (o.tool, f)).length := by
    induction outcomes generalizing count with
    | nil => simp
    | cons o rest ih =>
      obtain ⟨hfirst, hrest⟩ := List.forall_mem_cons.mp ho
      rw [List.foldl_cons, ih hrest, List.filter_cons]
      cases he : o.error with
      | none => simp [Outcome.succeeded, he, Nat.add_assoc]
      | some e =>
        have hnone : o.findings = [] := hfirst (by simp [he])
        simp [Outcome.succeeded, he, hnone]
  rw [hsum r.outcomes hr, Nat.zero_add]
  rfl

namespace Markdown

/-- A number that is followed by a blank can be read back. -/
theorem number_inj {m n : Nat} {x y : String}
    (h : Nat.repr m ++ " " ++ x = Nat.repr n ++ " " ++ y) : m = n := by
  have hdigits (k : Nat) (z : String) :
      (Nat.repr k ++ " " ++ z).toList.takeWhile Char.isDigit = Nat.toDigits 10 k := by
    have hall : ∀ c ∈ Nat.toDigits 10 k, c.isDigit = true :=
      fun c hc => Nat.isDigit_of_mem_toDigits (by decide) (by decide) hc
    rw [String.toList_append, String.toList_append, Nat.toList_repr, List.append_assoc,
      List.takeWhile_append_of_pos hall]
    simp
  have hsame : Nat.toDigits 10 m = Nat.toDigits 10 n := by rw [← hdigits m x, h, hdigits n y]
  rw [← Nat.ofDigitChars_ten_toDigits (n := m), hsame, Nat.ofDigitChars_ten_toDigits]

/-- The title over so many findings. -/
def title (count : Nat) : String :=
  "## Findings (" ++ Nat.repr count ++ if count = 1 then " issue)" else " issues)"

theorem title_eq (count : Nat) : "## Findings (" ++ plural count "issue" ++ ")" = title count := by
  rw [title, plural]
  split
  · simp [String.append_assoc]
  · simp [String.append_assoc]

theorem title_inj {m n : Nat} (h : title m = title n) : m = n := by
  have hparts (k : Nat) : ∃ rest, title k = "## Findings (" ++ (Nat.repr k ++ " " ++ rest) := by
    refine ⟨"issue" ++ (if k = 1 then "" else "s") ++ ")", ?_⟩
    rw [← title_eq, plural]
    simp only [String.append_assoc]
  obtain ⟨x, hx⟩ := hparts m
  obtain ⟨y, hy⟩ := hparts n
  rw [hx, hy] at h
  exact number_inj (String.append_right_inj _ |>.mp h)

/-- Whether a line begins as a title over findings does. -/
def isTitle (line : String) : Bool := "## Findings (".toList.isPrefixOf line.toList

theorem isTitle_title (count : Nat) : isTitle (title count) = true := by
  rw [isTitle, title, String.append_assoc, String.toList_append, List.isPrefixOf_iff_prefix]
  exact List.prefix_append _ _

theorem title_not_mem {ls : List String} (h : ∀ line ∈ ls, isTitle line = false) (count : Nat) :
    title count ∉ ls := by
  intro hm
  have hf := h _ hm
  rw [isTitle_title] at hf
  exact Bool.noConfusion hf

/-- The line for a finding, however many digits its numbers have. -/
def bulletLine (f : Finding) : String :=
  let place := match f.col with
    | none => "line " ++ integerText f.line
    | some col => "line " ++ integerText f.line ++ ", col " ++ integerText col
  "- **[" ++ f.tag ++ "]** \x60" ++ f.rule ++ "\x60 " ++ f.message ++ " (" ++ place ++ ")"

/-- The line over the findings of a file. -/
def heading (file : String) : String := "### \x60" ++ file ++ "\x60"

def fileLines (fs : List Finding) (file : String) : List String :=
  heading file :: "" :: ((inFile fs file).map bulletLine ++ [""])

def findingsLines (fs : List Finding) : List String :=
  title fs.length :: "" :: (files fs).flatMap (fileLines fs)

def bodyLines (fs : List Finding) (warnings : List String) : List String :=
  if fs.isEmpty && warnings.isEmpty then ["## No issues found", "", "All checks passed.", ""]
  else (if fs.isEmpty then [] else findingsLines fs) ++
    if warnings.isEmpty then [] else warningsSection warnings

/-- The line under a report that counts the findings and the analyzers. -/
def tally (r : Report) (count : Nat) : String :=
  "*" ++ Nat.repr count ++ (if count = 1 then " finding" else " findings") ++ " from " ++
    Nat.repr r.successes.length ++ (if r.successes.length = 1 then " tool" else " tools") ++
    " in " ++ seconds r.duration ++ "*"

/-- The lines of a report, however many digits its numbers have. -/
def page (r : Report) : List String :=
  header r ++ bodyLines (r.findings.map (·.2)) r.warnings ++
    ["---", "", tally r r.findings.length, ""]

def pageText (r : Report) : String := "\n".intercalate (page r)

/-- What comes of printing: what there is to print if the numbers in it can be written, and
otherwise the fault that they cannot. -/
structure Prints {α : Type} (answer : Except Fault α) (fits : Prop) (printed : α) : Prop where
  answers : fits → answer = .ok printed
  refuses : ¬ fits → answer = .error .numberUnwritable

section
variable {α β : Type} {x : Except Fault α} {p q : Prop} {a : α}

theorem prints_ok (a : α) : Prints (.ok a) True a where
  answers _ := rfl
  refuses h := absurd trivial h

theorem Prints.congr (h : Prints x p a) (hpq : p ↔ q) : Prints x q a where
  answers hq := h.answers (hpq.mpr hq)
  refuses hq := h.refuses fun hp => hq (hpq.mp hp)

theorem Prints.bind {f : α → Except Fault β} {b : β} (h : Prints x p a) (hf : Prints (f a) q b) :
    Prints (x >>= f) (p ∧ q) b where
  answers hpq := by
    rw [h.answers hpq.1]
    exact hf.answers hpq.2
  refuses hpq := by
    by_cases hp : p
    · rw [h.answers hp]
      exact hf.refuses fun hq => hpq ⟨hp, hq⟩
    · rw [h.refuses hp]
      rfl

theorem Prints.map (h : Prints x p a) (f : α → β) : Prints (x >>= fun a => .ok (f a)) p (f a) :=
  (h.bind (prints_ok (f a))).congr (Iff.of_eq (and_true p))

theorem prints_mapM {items : List α} {f : α → Except Fault β} {fits : α → Prop} {g : α → β}
    (h : ∀ a, Prints (f a) (fits a) (g a)) :
    Prints (items.mapM f) (∀ a ∈ items, fits a) (items.map g) := by
  induction items with
  | nil => exact (prints_ok []).congr (by simp)
  | cons a rest ih =>
    rw [List.mapM_cons]
    exact ((h a).bind (ih.map (g a :: ·))).congr List.forall_mem_cons.symm

/-- What is printed is what there is to print. -/
theorem Prints.eq_of_ok {b : α} (h : Prints x p a) (hb : x = .ok b) : p ∧ b = a := by
  by_cases hp : p
  · rw [h.answers hp] at hb
    exact ⟨hp, (Except.ok.inj hb).symm⟩
  · rw [h.refuses hp] at hb
    cases hb

end

theorem prints_numeral (n : Int) : Prints (numeral n) (Json.Legible (.int n)) (integerText n) := by
  rw [Json.Legible, numeral, integerFits]
  constructor
  · intro hn
    rw [if_pos (decide_eq_true hn)]
  · intro hn
    rw [if_neg (by simpa using hn)]

theorem prints_bullet (f : Finding) : Prints (bullet f) f.Legible (bulletLine f) := by
  have hline := prints_numeral f.line
  have hlegible : f.Legible ↔
      Json.Legible (.int f.line) ∧ ∀ col ∈ f.col, Json.Legible (.int col) :=
    ⟨fun h => ⟨h.line, h.column⟩, fun h => ⟨h.1, h.2⟩⟩
  rw [bullet, bulletLine, hlegible, place]
  cases hcol : f.col with
  | none => exact ((hline.map ("line " ++ ·)).map _).congr (by simp)
  | some col =>
    have hcolumn := (prints_numeral col).map ("line " ++ integerText f.line ++ ", col " ++ ·)
    exact ((hline.bind hcolumn).map _).congr (by simp)

theorem prints_fileSection (fs : List Finding) (file : String) :
    Prints (fileSection fs file) (∀ f ∈ inFile fs file, f.Legible) (fileLines fs file) :=
  (prints_mapM prints_bullet).map fun bullets => heading file :: "" :: (bullets ++ [""])

variable (fs : List Finding)

theorem mem_inFile (file : String) (f : Finding) :
    f ∈ inFile fs file ↔ f ∈ fs ∧ f.file = file := by
  rw [inFile, List.mem_mergeSort, List.mem_filter, beq_iff_eq]

theorem mem_files (file : String) : file ∈ files fs ↔ ∃ f ∈ fs, f.file = file := by
  rw [files, List.mem_mergeSort, List.mem_eraseDups, List.mem_map]

/-- The section over findings comes exactly if every number in them can be written. -/
theorem prints_findingsSection :
    Prints (findingsSection fs) (∀ f ∈ fs, f.Legible) (findingsLines fs) := by
  have heach : Prints ((files fs).mapM (fileSection fs)) _ _ := prints_mapM (prints_fileSection fs)
  have hsections := heach.map fun sections => title fs.length :: "" :: sections.flatten
  have hall : (∀ file ∈ files fs, ∀ f ∈ inFile fs file, f.Legible) ↔ ∀ f ∈ fs, f.Legible := by
    constructor
    · intro h f hf
      have hfile := (mem_files fs f.file).mpr ⟨f, hf, rfl⟩
      exact h f.file hfile f ((mem_inFile fs f.file f).mpr ⟨hf, rfl⟩)
    · intro h file _ f hf
      exact h f ((mem_inFile fs file f).mp hf).1
  rw [findingsSection, title_eq]
  exact hsections.congr hall

theorem prints_body (warnings : List String) :
    Prints (body fs warnings) (∀ f ∈ fs, f.Legible) (bodyLines fs warnings) := by
  rw [body, bodyLines]
  cases fs with
  | nil =>
    split
    · exact (prints_ok _).congr (by simp)
    · exact (prints_ok _).congr (by simp)
  | cons f rest =>
    exact (prints_findingsSection (f :: rest)).map fun found =>
      found ++ if warnings.isEmpty then [] else warningsSection warnings

theorem footer_eq (r : Report) : footer r = ["---", "", tally r r.findings.length, ""] := by
  rw [footer, tally, plural, plural]
  split <;> split <;> simp [String.append_assoc]

/-- The lines of a report come exactly if every number of a finding can be written. -/
theorem prints_lines (r : Report) :
    Prints (lines r) (∀ f ∈ r.findings.map (·.2), f.Legible) (page r) := by
  rw [page, ← footer_eq]
  exact (prints_body _ r.warnings).map fun told => header r ++ told ++ footer r

theorem prints_text (r : Report) :
    Prints (text r) (∀ f ∈ r.findings.map (·.2), f.Legible) (pageText r) :=
  (prints_lines r).map ("\n".intercalate ·)

theorem header_isTitle (r : Report) : ∀ line ∈ header r, isTitle line = false := by
  unfold header
  simp only [List.forall_mem_append]
  refine ⟨⟨⟨?_, ?_⟩, ?_⟩, ?_⟩
  · simp [isTitle, List.isPrefixOf, project]
  · split <;> simp [isTitle, List.isPrefixOf]
  · split <;> simp [isTitle, List.isPrefixOf]
  · simp [isTitle, List.isPrefixOf]

theorem fileLines_isTitle (file : String) : ∀ line ∈ fileLines fs file, isTitle line = false := by
  unfold fileLines
  simp only [List.forall_mem_cons, List.forall_mem_append, List.forall_mem_map]
  refine ⟨?_, ?_, fun f _ => ?_, ?_⟩
  · simp [isTitle, heading, List.isPrefixOf]
  · simp [isTitle]
  · simp [isTitle, bulletLine, List.isPrefixOf]
  · simp [isTitle]

theorem warningsSection_isTitle (warnings : List String) :
    ∀ line ∈ warningsSection warnings, isTitle line = false := by
  unfold warningsSection
  simp only [List.forall_mem_append, List.forall_mem_map]
  refine ⟨⟨?_, fun w _ => ?_⟩, ?_⟩
  · simp [isTitle, List.isPrefixOf]
  · simp [isTitle, List.isPrefixOf]
  · simp [isTitle]

theorem tally_isTitle (r : Report) (count : Nat) :
    ∀ line ∈ ["---", "", tally r count, ""], isTitle line = false := by
  simp [tally, isTitle, List.isPrefixOf]

theorem title_mem_findingsLines (count : Nat) :
    title count ∈ findingsLines fs ↔ count = fs.length := by
  have hbelow : title count ∉ "" :: (files fs).flatMap (fileLines fs) := by
    apply title_not_mem
    simp only [List.forall_mem_cons, List.forall_mem_flatMap]
    exact ⟨by simp [isTitle], fun file _ => fileLines_isTitle fs file⟩
  rw [findingsLines, List.mem_cons, or_iff_left hbelow]
  exact ⟨title_inj, fun h => h ▸ rfl⟩

theorem title_mem_bodyLines (warnings : List String) (count : Nat) :
    title count ∈ bodyLines fs warnings ↔ count = fs.length ∧ 0 < fs.length := by
  have hwarnings : title count ∉ (if warnings.isEmpty then [] else warningsSection warnings) := by
    split
    · simp
    · exact title_not_mem (warningsSection_isTitle warnings) count
  have hclean : title count ∉ ["## No issues found", "", "All checks passed.", ""] :=
    title_not_mem (by simp [isTitle, List.isPrefixOf]) count
  cases fs with
  | nil =>
    unfold bodyLines
    split
    · simpa using hclean
    · simpa using hwarnings
  | cons f fs =>
    simp only [bodyLines, List.isEmpty_cons, Bool.false_and, Bool.false_eq_true, if_false,
      List.mem_append, or_iff_left hwarnings, title_mem_findingsLines]
    simp

/-- There is a title over findings exactly if there are any, and it states how many. -/
theorem title_mem_page (r : Report) (count : Nat) :
    title count ∈ page r ↔ count = r.findings.length ∧ 0 < r.findings.length := by
  have hheader := title_not_mem (header_isTitle r) count
  have hfooter := title_not_mem (tally_isTitle r r.findings.length) count
  rw [page, List.mem_append, List.mem_append, or_iff_left hfooter, or_iff_right hheader,
    title_mem_bodyLines, List.length_map]

theorem page_tally (r : Report) :
    ∃ above, page r = above ++ ["---", "", tally r r.findings.length, ""] := ⟨_, rfl⟩

end Markdown

namespace Sarif

/-- The results of the only run that a document tells of. -/
def results? : Json → Option (List Json)
  | .record fields =>
    match Fields.find? "runs" fields with
    | some (.list [.record run]) =>
      match Fields.find? "results" run with
      | some (.list results) => some results
      | _ => none
    | _ => none
  | _ => none

/-- The text is the document as it is written, which comes if all its integers can be. -/
theorem text_eq_ok {r : Report} {t : String} : text r = .ok t ↔
    Json.writable (document r) = true ∧
      String.ofList (Json.written (.indented 2 0) (document r)) ++ "\n" = t := by
  rw [text, Json.indented]
  by_cases hw : Json.writable (document r) = true
  · rw [if_pos hw]
    simp [hw]
  · rw [if_neg hw]
    simp [hw]

theorem text_refuses {r : Report} (hw : Json.writable (document r) = false) :
    text r = .error .numberUnwritable := by
  rw [text, Json.indented, hw]
  rfl

/-- However doubles are read back, there is a result for each finding. -/
theorem results?_document (f : Double → Double) (r : Report) :
    (results? (Json.mapFloats f (document r))).map List.length = some r.findings.length := by
  have hlength (items : List Json) : (Json.mapFloatsItems f items).length = items.length := by
    induction items with
    | nil => rfl
    | cons x xs ih => rw [Json.mapFloatsItems, List.length_cons, ih, List.length_cons]
  simp [results?, document, Fields.find?, List.lookup_cons, Json.mapFloats, Json.mapFloatsItems,
    Json.mapFloatsFields, hlength]

end Sarif
end CodeAudit.Report
