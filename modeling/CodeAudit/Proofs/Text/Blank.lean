import CodeAudit.Text.Blank
import CodeAudit.Text.Lines
import Mathlib.Data.List.DropRight
import Mathlib.Data.List.TakeWhile
namespace CodeAudit.Text

theorem trimStart_all_blank (cs : List Char) :
    (trimStart cs).all isBlank = true ↔ cs.all isBlank = true := by
  have hsplit : cs.takeWhile isBlank ++ trimStart cs = cs := List.takeWhile_append_dropWhile
  have hall := congrArg (List.all · isBlank) hsplit
  rw [List.all_append, List.all_takeWhile, Bool.true_and] at hall
  rw [hall]

/-- Nothing is left of a text exactly if it is all white space. -/
theorem trim_eq_nil_iff (cs : List Char) : trim cs = [] ↔ cs.all isBlank = true := by
  rw [trim, trimEnd, List.reverse_eq_nil_iff, List.dropWhile_eq_nil_iff,
    ← trimStart_all_blank, List.all_eq_true]
  simp only [List.mem_reverse]

theorem trim_trim (cs : List Char) : trim (trim cs) = trim cs := by
  have hfront : trimStart (trim cs) = trim cs := by
    obtain ⟨after, hafter⟩ : trim cs <+: trimStart cs := List.rdropWhile_prefix isBlank _
    cases htrim : trim cs with
    | nil => rfl
    | cons c rest =>
      have hcut : cs.dropWhile isBlank = c :: (rest ++ after) := by
        rw [← List.cons_append, ← htrim]
        exact hafter.symm
      have hhead := List.head?_dropWhile_not isBlank cs
      rw [hcut] at hhead
      exact List.dropWhile_cons_of_neg (Bool.eq_false_iff.mp hhead)
  have hback : trimEnd (trim cs) = trim cs := List.rdropWhile_idempotent isBlank _
  rw [trim, hfront, hback]

theorem strip_strip (s : String) : strip (strip s) = strip s := by
  rw [strip, strip, String.toList_ofList, trim_trim]

theorem blank_strip (s : String) : blank (strip s) = blank s := by
  rw [Bool.eq_iff_iff, blank, blank, strip, String.toList_ofList, ← trim_eq_nil_iff,
    ← trim_eq_nil_iff, trim_trim]

theorem strip_ne_empty {s : String} (h : blank s = false) : strip s ≠ "" := by
  intro hempty
  have htrim : trim s.toList = [] := by
    rw [← String.toList_ofList (l := trim s.toList)]
    exact congrArg String.toList hempty
  rw [blank, (trim_eq_nil_iff _).mp htrim] at h
  cases h

/-- The last character of a text without white space at its ends is none. -/
theorem strip_last {s : String} {c : Char} (h : (strip s).toList.getLast? = some c) :
    isBlank c = false := by
  rw [strip, String.toList_ofList, trim, trimEnd, List.getLast?_reverse] at h
  have hhead := List.head?_dropWhile_not isBlank (trimStart s.toList).reverse
  rw [h] at hhead
  exact hhead

theorem mem_of_mem_splitLinesFrom {current cs line : List Char}
    (h : line ∈ splitLinesFrom current cs) {c : Char} (hc : c ∈ line) : c ∈ current ∨ c ∈ cs := by
  fun_induction splitLinesFrom current cs with
  | case1 current => simp at h
  | case2 current =>
    rw [List.mem_singleton.mp h] at hc
    exact .inl (List.mem_reverse.mp hc)
  | case3 current rest ih =>
    rcases List.mem_cons.mp h with rfl | h
    · exact .inl (List.mem_reverse.mp hc)
    · have hrest := ih h
      grind
  | case4 current d rest _ _ ih =>
    rcases List.mem_cons.mp h with rfl | h
    · exact .inl (List.mem_reverse.mp hc)
    · have hrest := ih h
      grind
  | case5 current d rest _ _ ih =>
    have hrest := ih h
    grind

theorem trim_of_mem_splitLines {cs line : List Char} (hcs : cs.all isBlank = true)
    (h : line ∈ splitLines cs) : trim line = [] := by
  rw [trim_eq_nil_iff, List.all_eq_true]
  intro c hc
  rcases mem_of_mem_splitLinesFrom h hc with hnone | hc
  · cases hnone
  · exact List.all_eq_true.mp hcs c hc

end CodeAudit.Text
