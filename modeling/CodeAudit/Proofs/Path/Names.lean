import CodeAudit.Path.Basic
namespace CodeAudit

namespace Text

theorem splitAt_eq_splitOn (sep : Char) (cs : List Char) : splitAt sep cs = cs.splitOn sep := by
  induction cs with
  | nil => rfl
  | cons c cs ih =>
    simp only [splitAt, ih, List.splitOn_cons_eq_if_modifyHead, beq_iff_eq]
    by_cases h : c = sep
    · simp [h]
    · simp only [h, if_false]
      cases hs : cs.splitOn sep with
      | nil => exact absurd hs (List.splitOn_ne_nil sep cs)
      | cons piece pieces => rfl

theorem splitAt_intercalate (sep : Char) (pieces : List (List Char)) (hne : pieces ≠ [])
    (hs : ∀ piece ∈ pieces, sep ∉ piece) : splitAt sep ([sep].intercalate pieces) = pieces := by
  rw [splitAt_eq_splitOn]
  exact List.splitOn_intercalate sep hs hne

theorem not_mem_of_mem_splitAt {sep : Char} {cs piece : List Char} (h : piece ∈ splitAt sep cs) :
    sep ∉ piece := by
  induction cs generalizing piece with
  | nil =>
    obtain rfl := List.mem_singleton.mp h
    simp
  | cons c cs ih =>
    rw [splitAt] at h
    split at h
    · rcases List.mem_cons.mp h with rfl | h
      · simp
      · exact ih h
    · next hc =>
      split at h
      · obtain rfl := List.mem_singleton.mp h
        simpa using Ne.symm hc
      · next first pieces hs =>
        rw [hs] at ih
        rcases List.mem_cons.mp h with rfl | h
        · rw [List.mem_cons, not_or]
          exact ⟨Ne.symm hc, ih (by simp)⟩
        · exact ih (List.mem_cons_of_mem first h)

theorem mem_of_mem_splitAt {sep c : Char} {cs piece : List Char} (h : piece ∈ splitAt sep cs)
    (hc : c ∈ piece) : c ∈ cs := by
  induction cs generalizing piece with
  | nil =>
    obtain rfl := List.mem_singleton.mp h
    exact hc
  | cons d cs ih =>
    rw [splitAt] at h
    split at h
    · rcases List.mem_cons.mp h with rfl | h
      · cases hc
      · exact List.mem_cons_of_mem d (ih h hc)
    · split at h
      · obtain rfl := List.mem_singleton.mp h
        obtain rfl := List.mem_singleton.mp hc
        exact List.mem_cons_self
      · next first pieces hs =>
        rw [hs] at ih
        rcases List.mem_cons.mp h with rfl | h
        · refine List.mem_cons.mpr ((List.mem_cons.mp hc).imp_right fun hfirst => ?_)
          exact ih List.mem_cons_self hfirst
        · exact List.mem_cons_of_mem d (ih (List.mem_cons_of_mem first h) hc)

end Text

namespace Path

/-- A name that something in a directory can have. -/
def IsName (n : String) : Prop := n ≠ "" ∧ n ≠ "." ∧ n ≠ ".." ∧ '/' ∉ n.toList

instance (n : String) : Decidable (IsName n) :=
  inferInstanceAs (Decidable (n ≠ "" ∧ n ≠ "." ∧ n ≠ ".." ∧ '/' ∉ n.toList))

theorem toList_intercalate_slash (names : List String) :
    ("/".intercalate names).toList = ['/'].intercalate (names.map String.toList) :=
  String.toList_intercalate

/-- A text that holds names with slashes between them, parent steps among them, is read as these
names. -/
theorem namesOf_intercalate_of_pieces (names : List String)
    (hn : ∀ n ∈ names, n ≠ "" ∧ n ≠ "." ∧ '/' ∉ n.toList) :
    namesOf ("/".intercalate names).toList = names := by
  cases names with
  | nil => rfl
  | cons n rest =>
    have hs : ∀ piece ∈ (n :: rest).map String.toList, '/' ∉ piece := by
      intro piece hp
      obtain ⟨m, hm, rfl⟩ := List.mem_map.mp hp
      exact (hn m hm).2.2
    rw [namesOf, toList_intercalate_slash, Text.splitAt_intercalate _ _ (by simp) hs, List.map_map]
    have hid : String.ofList ∘ String.toList = id := by
      funext s
      exact String.ofList_toList
    rw [hid, List.map_id, List.filter_eq_self]
    intro m hm
    simp [(hn m hm).1, (hn m hm).2.1]

theorem namesOf_intercalate (names : List String) (hn : ∀ n ∈ names, IsName n) :
    namesOf ("/".intercalate names).toList = names :=
  namesOf_intercalate_of_pieces names fun n hm => ⟨(hn n hm).1, (hn n hm).2.1, (hn n hm).2.2.2⟩

/-- As `namesOf_intercalate`, after a slash or several. -/
theorem namesOf_slash (cs : List Char) : namesOf ('/' :: cs) = namesOf cs := by
  simp [namesOf, Text.splitAt]

/-- A text that begins with a name, be it a parent step, does not begin with a slash. -/
theorem head_intercalate_of_pieces (names : List String)
    (hn : ∀ n ∈ names, n ≠ "" ∧ '/' ∉ n.toList) :
    ("/".intercalate names).toList.head? ≠ some '/' := by
  cases names with
  | nil => simp
  | cons n rest =>
    obtain ⟨hempty, hslash⟩ := hn n (by simp)
    have h : n.toList.head? ≠ some '/' := fun h => hslash (List.mem_of_mem_head? h)
    have hne : n.toList ≠ [] := fun h => hempty (String.toList_eq_nil_iff.mp h)
    rw [toList_intercalate_slash]
    cases rest with
    | nil => simpa using h
    | cons m rest =>
      rw [List.map_cons, List.map_cons, List.intercalate_cons_cons, List.append_assoc,
        List.head?_append]
      cases hl : n.toList with
      | nil => exact absurd hl hne
      | cons c cs => simpa [hl] using h

theorem head_intercalate_ne_slash (names : List String) (hn : ∀ n ∈ names, IsName n) :
    ("/".intercalate names).toList.head? ≠ some '/' :=
  head_intercalate_of_pieces names fun n hm => ⟨(hn n hm).1, (hn n hm).2.2.2⟩

theorem anchorOf_of_head {cs : List Char} (h : cs.head? ≠ some '/') : anchorOf cs = .relative := by
  unfold anchorOf
  split
  · exact absurd rfl h
  · exact absurd rfl h
  · exact absurd rfl h
  · rfl

theorem ofText_intercalate (names : List String) (hn : ∀ n ∈ names, IsName n) :
    ofText ("/".intercalate names) = ⟨.relative, names⟩ := by
  rw [ofText, anchorOf_of_head (head_intercalate_ne_slash names hn), namesOf_intercalate names hn]

theorem child_intercalate (p : Path) (names : List String) (hn : ∀ n ∈ names, IsName n) :
    p.child ("/".intercalate names) = ⟨p.anchor, p.names ++ names⟩ := by
  rw [child, ofText_intercalate names hn, join]

/-- Without parent steps nothing is undone. -/
theorem settleOnto_eq (stack names : List String) (hn : ".." ∉ names) :
    settleOnto stack names = names.reverse ++ stack := by
  induction names generalizing stack with
  | nil => rfl
  | cons n rest ih =>
    simp only [List.mem_cons, not_or] at hn
    rw [settleOnto, if_neg (Ne.symm hn.1), ih _ hn.2]
    simp

theorem settled_eq (names : List String) (hn : ".." ∉ names) : settled names = names := by
  simp [settled, settleOnto_eq [] names hn]

theorem dots_not_mem {names : List String} (hn : ∀ n ∈ names, IsName n) : ".." ∉ names := by
  intro h
  exact (hn ".." h).2.2.1 rfl

theorem common_append (start below : List String) : common start (start ++ below) = start := by
  induction start with
  | nil => simp [common]
  | cons a start ih => simp [common, ih]

/-- The way from a directory to what is below it goes only down. -/
theorem route_append (start below : List String) : route start (start ++ below) = below := by
  simp [route, common_append]

/-- A relative text only has its backslashes turned. -/
theorem relativize_of_relative (directory : Path) (file : String)
    (hf : file.toList.head? ≠ some '/') :
    directory.relativize file =
      String.ofList (file.toList.map fun c => if c = '\\' then '/' else c) := by
  rw [relativize, if_neg hf]

/-- What is written from the root on and is below a directory is read as the names below it. -/
theorem relativize_below (directory below : List String) (hd : ∀ n ∈ directory, IsName n)
    (hb : ∀ n ∈ below, IsName n) (hne : below ≠ []) :
    (Path.mk .root directory).relativize (Path.mk .root (directory ++ below)).text =
      "/".intercalate below := by
  have hall : ∀ n ∈ directory ++ below, IsName n := by
    intro n hn
    rcases List.mem_append.mp hn with hn | hn
    · exact hd n hn
    · exact hb n hn
  have ht : (Path.mk .root (directory ++ below)).text.toList =
      '/' :: ("/".intercalate (directory ++ below)).toList := by
    simp [text]
  have hs : (Path.mk .relative below).text = "/".intercalate below := by
    simp [text, hne]
  rw [relativize, ht, List.head?_cons, if_pos rfl, namesOf_slash, namesOf_intercalate _ hall,
    settled_eq _ (dots_not_mem hd), settled_eq _ (dots_not_mem hall), route_append, hs]

theorem suffix_intercalate_append (names : List String) (n : String) :
    n.toList <:+ ("/".intercalate (names ++ [n])).toList := by
  rw [toList_intercalate_slash]
  induction names with
  | nil => simp
  | cons m rest ih =>
    obtain ⟨k, more, hmore⟩ := List.exists_cons_of_ne_nil (l := rest ++ [n]) (by simp)
    rw [hmore, List.map_cons] at ih
    rw [List.cons_append, hmore, List.map_cons, List.map_cons, List.intercalate_cons_cons]
    exact ih.trans (List.suffix_append _ _)

/-- The text of a path below a directory ends in its name. -/
theorem suffix_text_child (names : List String) {n : String} (hn : IsName n) :
    n.toList <:+ ((Path.mk .root names).child n).text.toList := by
  have hchild := child_intercalate ⟨.root, names⟩ [n] (by simpa using hn)
  rw [show "/".intercalate [n] = n from rfl] at hchild
  rw [hchild, text, String.toList_append]
  exact (suffix_intercalate_append names n).trans (List.suffix_append _ _)

end Path
end CodeAudit
