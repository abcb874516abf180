import CodeAudit.Proofs.Path.Names
namespace CodeAudit.Path

/-- A file's text that starts from no place of its own and has its names parted by slashes only. -/
def IsLocal (file : String) : Prop := file.toList.head? ≠ some '/' ∧ '\\' ∉ file.toList

instance (file : String) : Decidable (IsLocal file) :=
  inferInstanceAs (Decidable (file.toList.head? ≠ some '/' ∧ '\\' ∉ file.toList))

/-- The names on the way from a directory to a file that is named from the root on. -/
def wayTo (directory : Path) (file : String) : List String :=
  route (settled directory.names) (settled (namesOf file.toList))

/-- A file's text that is not local once it is read from a directory: one that begins with a
backslash, or one from the root on with a backslash in a name that is kept. -/
def Misread (directory : Path) (file : String) : Prop :=
  if file.toList.head? = some '/' then ∃ n ∈ wayTo directory file, '\\' ∈ n.toList
  else file.toList.head? = some '\\'

theorem mem_settleOnto {stack names : List String} {n : String} (h : n ∈ settleOnto stack names) :
    n ∈ stack ∨ n ∈ names := by
  induction names generalizing stack with
  | nil => exact .inl h
  | cons m rest ih =>
    rw [settleOnto] at h
    rcases ih h with h | h
    · by_cases hm : m = ".."
      · rw [if_pos hm] at h
        exact .inl (List.mem_of_mem_drop h)
      · rw [if_neg hm] at h
        rcases List.mem_cons.mp h with rfl | h
        · exact .inr List.mem_cons_self
        · exact .inl h
    · exact .inr (List.mem_cons_of_mem m h)

theorem mem_settled {names : List String} {n : String} (h : n ∈ settled names) : n ∈ names := by
  rcases mem_settleOnto (List.mem_reverse.mp h) with h | h
  · simp at h
  · exact h

theorem mem_namesOf {cs : List Char} {n : String} (h : n ∈ namesOf cs) :
    n ≠ "" ∧ '/' ∉ n.toList := by
  obtain ⟨hpiece, hkept⟩ := List.mem_filter.mp h
  obtain ⟨piece, hp, rfl⟩ := List.mem_map.mp hpiece
  refine ⟨?_, ?_⟩
  · intro hempty
    simp [hempty] at hkept
  · rw [String.toList_ofList]
    exact Text.not_mem_of_mem_splitAt hp

theorem mem_wayTo {directory : Path} {file : String} {n : String} (h : n ∈ wayTo directory file) :
    n ≠ "" ∧ '/' ∉ n.toList := by
  rcases List.mem_append.mp h with h | h
  · obtain rfl := (List.mem_replicate.mp h).2
    decide
  · exact mem_namesOf (mem_settled (List.mem_of_mem_drop h))

/-- A character other than a slash stands in a list of names exactly if it stands in one. -/
theorem mem_intercalate_slash {c : Char} (hc : c ≠ '/') (names : List String) :
    c ∈ ("/".intercalate names).toList ↔ ∃ n ∈ names, c ∈ n.toList := by
  rw [toList_intercalate_slash]
  induction names with
  | nil => simp
  | cons n rest ih =>
    cases rest with
    | nil => simp
    | cons m rest =>
      rw [List.map_cons, List.map_cons, List.intercalate_cons_cons]
      rw [List.map_cons] at ih
      rw [List.mem_append, List.mem_append, ih, List.mem_singleton]
      simp [hc]

/-- A relative path without names is written as a dot. -/
theorem text_relative_cases (names : List String) :
    (Path.mk .relative names).text = if names = [] then "." else "/".intercalate names := by
  cases names with
  | nil => rfl
  | cons n rest => rfl

theorem relativize_of_absolute (directory : Path) {file : String}
    (hf : file.toList.head? = some '/') :
    directory.relativize file = (Path.mk .relative (wayTo directory file)).text := by
  rw [relativize, if_pos hf]
  rfl

/-- What is named from the root on is read as a relative text. -/
theorem head_relativize_of_absolute (directory : Path) {file : String}
    (hf : file.toList.head? = some '/') :
    (directory.relativize file).toList.head? ≠ some '/' := by
  rw [relativize_of_absolute directory hf, text_relative_cases]
  by_cases hnone : wayTo directory file = []
  · rw [if_pos hnone]
    decide
  · rw [if_neg hnone]
    exact head_intercalate_of_pieces _ fun n hn => mem_wayTo hn

theorem backslash_relativize_of_absolute (directory : Path) {file : String}
    (hf : file.toList.head? = some '/') :
    '\\' ∈ (directory.relativize file).toList ↔
      ∃ n ∈ wayTo directory file, '\\' ∈ n.toList := by
  rw [relativize_of_absolute directory hf, text_relative_cases]
  by_cases hnone : wayTo directory file = []
  · rw [if_pos hnone, hnone]
    simp
  · rw [if_neg hnone]
    exact mem_intercalate_slash (by decide) _

theorem backslash_relativize_of_relative (directory : Path) {file : String}
    (hf : file.toList.head? ≠ some '/') : '\\' ∉ (directory.relativize file).toList := by
  rw [relativize_of_relative directory file hf, String.toList_ofList]
  intro h
  obtain ⟨c, -, hc⟩ := List.mem_map.mp h
  by_cases hb : c = '\\'
  · rw [if_pos hb] at hc
    exact absurd hc (by decide)
  · rw [if_neg hb] at hc
    exact hb hc

theorem map_turn_eq_self {cs : List Char} (hcs : '\\' ∉ cs) :
    cs.map (fun c => if c = '\\' then '/' else c) = cs := by
  have hid : cs.map (fun c => if c = '\\' then '/' else c) = cs.map id := by
    apply List.map_congr_left
    intro c hc
    have hne : c ≠ '\\' := fun h => hcs (h ▸ hc)
    exact if_neg hne
  rw [hid, List.map_id]

/-- A relative text is read as one from the root on exactly if it begins with a backslash. -/
theorem head_relativize_of_relative (directory : Path) {file : String}
    (hf : file.toList.head? ≠ some '/') :
    (directory.relativize file).toList.head? = some '/' ↔ file.toList.head? = some '\\' := by
  rw [relativize_of_relative directory file hf, String.toList_ofList]
  cases hcs : file.toList with
  | nil => simp
  | cons c cs =>
    rw [hcs, List.head?_cons] at hf
    have hslash : c ≠ '/' := fun h => hf (congrArg some h)
    rw [List.map_cons, List.head?_cons, List.head?_cons]
    by_cases hb : c = '\\'
    · simp [hb]
    · simp [hb, hslash]

theorem isLocal_relativize_iff (directory : Path) (file : String) :
    IsLocal (directory.relativize file) ↔ ¬ directory.Misread file := by
  unfold IsLocal Misread
  by_cases hf : file.toList.head? = some '/'
  · rw [if_pos hf, backslash_relativize_of_absolute directory hf]
    exact and_iff_right (head_relativize_of_absolute directory hf)
  · rw [if_neg hf, ne_eq, head_relativize_of_relative directory hf]
    exact and_iff_left (backslash_relativize_of_relative directory hf)

example : (Path.mk .root ["repo"]).relativize "\\lib\\a.py" = "/lib/a.py" := by decide

/-- Exactly the local texts are read as they stand, whatever the directory. -/
theorem relativize_eq_self_iff (directory : Path) (file : String) :
    directory.relativize file = file ↔ IsLocal file := by
  constructor
  · intro h
    by_cases hf : file.toList.head? = some '/'
    · have hhead := head_relativize_of_absolute directory hf
      rw [h] at hhead
      exact absurd hf hhead
    · have hback := backslash_relativize_of_relative directory hf
      rw [h] at hback
      exact ⟨hf, hback⟩
  · intro h
    obtain ⟨hf, hb⟩ := h
    rw [relativize_of_relative directory file hf, map_turn_eq_self hb, String.ofList_toList]

end CodeAudit.Path
