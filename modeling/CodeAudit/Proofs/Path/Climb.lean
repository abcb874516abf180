import CodeAudit.Proofs.Path.Relative
import Mathlib.Data.List.DropRight
namespace CodeAudit.Path

/-- How many directories names lead up beyond the one that they start from. -/
def climbs : List String → Nat
  | [] => 0
  | n :: rest => if n = ".." then climbs rest + 1 else climbs rest - 1

/-- Names take off a stack what they climb and put on it what they lead down, whatever it holds. -/
theorem settleOnto_climbs (stack names : List String) :
    settleOnto stack names = settleOnto [] names ++ stack.drop (climbs names) := by
  induction names generalizing stack with
  | nil => rfl
  | cons n rest ih =>
    rw [settleOnto, settleOnto, climbs]
    by_cases hn : n = ".."
    · rw [if_pos hn, if_pos hn, if_pos hn, ih (stack.drop 1), List.drop_drop, Nat.add_comm]
      rfl
    · rw [if_neg hn, if_neg hn, if_neg hn, ih (n :: stack), ih [n], List.append_assoc]
      cases climbs rest with
      | zero => rfl
      | succ k => simp

theorem settleOnto_append (stack before names : List String) :
    settleOnto stack (before ++ names) = settleOnto (settleOnto stack before) names := by
  induction before generalizing stack with
  | nil => rfl
  | cons n rest ih =>
    rw [List.cons_append, settleOnto, settleOnto]
    exact ih _

/-- Names read from a directory leave of it what they do not climb out of. -/
theorem settled_append (start names : List String) :
    settled (start ++ names) = (settled start).rdrop (climbs names) ++ settled names := by
  rw [settled, settleOnto_append, settleOnto_climbs, List.reverse_append,
    List.rdrop_eq_reverse_drop_reverse, settled, List.reverse_reverse, settled]

/-- Names lead to the same place from two directories exactly if these differ only in what the names
climb out of. -/
theorem settled_append_inj (a b names : List String) :
    settled (a ++ names) = settled (b ++ names) ↔
      (settled a).rdrop (climbs names) = (settled b).rdrop (climbs names) := by
  rw [settled_append, settled_append]
  exact List.append_left_inj _

theorem mem_join {p q : Path} {n : String} (h : n ∈ (p.join q).names) :
    n ∈ p.names ∨ n ∈ q.names := by
  unfold join at h
  split at h
  · exact List.mem_append.mp h
  · exact .inr h

theorem mem_of_mem_namesOf {cs : List Char} {n : String} {c : Char} (hn : n ∈ namesOf cs)
    (hc : c ∈ n.toList) : c ∈ cs := by
  obtain ⟨hpiece, -⟩ := List.mem_filter.mp hn
  obtain ⟨piece, hp, rfl⟩ := List.mem_map.mp hpiece
  rw [String.toList_ofList] at hc
  exact Text.mem_of_mem_splitAt hp hc

/-- The place that a file's text names from a directory. -/
def reach (directory : Path) (file : String) : List String :=
  settled (directory.join (ofText file)).names

theorem reach_of_relative (directory : Path) {file : String} (hf : file.toList.head? ≠ some '/') :
    directory.reach file = settled (directory.names ++ namesOf file.toList) := by
  rw [reach, ofText, anchorOf_of_head hf, join]

/-- A local text that is read as from one directory names the place that it names from another
exactly if the two differ only in what it climbs out of. -/
theorem reach_relativize_iff (directory target start : Path) {file : String} (hf : IsLocal file) :
    directory.reach (target.relativize file) = start.reach file ↔
      (settled directory.names).rdrop (climbs (namesOf file.toList)) =
        (settled start.names).rdrop (climbs (namesOf file.toList)) := by
  rw [(target.relativize_eq_self_iff file).mpr hf, reach_of_relative _ hf.1,
    reach_of_relative _ hf.1]
  exact settled_append_inj _ _ _

/-- Local texts all name the same places from two directories only if these are the same place. -/
theorem reach_relativize_all_iff (directory target start : Path) :
    (∀ file, IsLocal file → directory.reach (target.relativize file) = start.reach file) ↔
      settled directory.names = settled start.names := by
  constructor
  · intro h
    have hdot : IsLocal "." := by decide
    have hsame := (reach_relativize_iff directory target start hdot).mp (h "." hdot)
    have hnone : climbs (namesOf ".".toList) = 0 := by decide
    rwa [hnone, List.rdrop_zero, List.rdrop_zero] at hsame
  · intro h file hf
    rw [reach_relativize_iff directory target start hf, h]

/-- A relative text with a backslash in a name that is kept names no place that a directory without
one leads to. -/
theorem reach_relativize_ne {directory target start : Path} {file n : String}
    (hf : file.toList.head? ≠ some '/') (hn : n ∈ settled (namesOf file.toList))
    (hback : '\\' ∈ n.toList) (hd : ∀ m ∈ directory.names, '\\' ∉ m.toList) :
    directory.reach (target.relativize file) ≠ start.reach file := by
  intro hsame
  have hstart : n ∈ start.reach file := by
    rw [reach_of_relative _ hf, settled_append]
    exact List.mem_append_right _ hn
  rw [← hsame] at hstart
  rcases mem_join (mem_settled hstart) with hm | hm
  · exact hd n hm hback
  · exact backslash_relativize_of_relative target hf (mem_of_mem_namesOf hm hback)

example : (Path.mk .root ["repo"]).reach "../lib/./a.py" = ["lib", "a.py"] := by decide

end CodeAudit.Path
