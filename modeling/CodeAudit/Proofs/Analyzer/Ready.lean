import CodeAudit.Proofs.Analyzer.Attempts
import Mathlib.Data.List.Nodup
namespace CodeAudit.Host
open Act
variable {h : Host} {as : List Analyzer} {p : Precheck} {w w' : World}

theorem rank_getElem (hn : (as.map (·.name)).Nodup) {i : Nat} (hi : i < as.length) :
    rank as as[i] = i + 1 := by
  let names := as.reverse.map (·.name)
  have hnodup : names.Nodup := by simpa [names] using hn
  have hj : as.length - 1 - i < names.length := by simp [names]; omega
  have hname : names[as.length - 1 - i] = as[i].name := by
    have hsame : as.length - 1 - (as.length - 1 - i) = i := by omega
    simp [names, List.getElem_reverse, hsame]
  have hfound : as.reverse.findIdx (·.name == as[i].name) = as.length - 1 - i := by
    have hindex := hnodup.idxOf_getElem _ hj
    rw [hname, List.idxOf, List.findIdx_map] at hindex
    exact hindex
  rw [rank, hfound]
  omega

/-- Analyzers of different names are ranked as they stand. -/
theorem rank_increasing (hn : (as.map (·.name)).Nodup) :
    as.Pairwise fun a b => rank as a < rank as b := by
  apply List.pairwise_iff_getElem.mpr
  intro i j hi hj hij
  rw [rank_getElem hn hi, rank_getElem hn hj]
  omega

theorem rank_injective (hn : (as.map (·.name)).Nodup) {a b : Analyzer} (ha : a ∈ as) (hb : b ∈ as)
    (he : rank as a = rank as b) : a = b := by
  obtain ⟨i, hi, rfl⟩ := List.getElem_of_mem ha
  obtain ⟨j, hj, rfl⟩ := List.getElem_of_mem hb
  rw [rank_getElem hn hi, rank_getElem hn hj] at he
  obtain rfl : i = j := by omega
  rfl

/-- Some analyzers in the order of all are a part of all, if no two have the same name. -/
theorem inOrderOf_eq (hn : (as.map (·.name)).Nodup) {some kept : List Analyzer}
    (hk : kept.Sublist as) (hp : some.Perm kept) : inOrderOf as some = kept := by
  have hperm : (inOrderOf as some).Perm kept := (List.mergeSort_perm _ _).trans hp
  have hsorted : (inOrderOf as some).Pairwise fun a b => decide (rank as a ≤ rank as b) = true := by
    apply List.pairwise_mergeSort
    · intro a b c hab hbc
      simp only [decide_eq_true_eq] at hab hbc ⊢
      exact Nat.le_trans hab hbc
    · intro a b
      simpa using Nat.le_total (rank as a) (rank as b)
  have hkept : kept.Pairwise fun a b => decide (rank as a ≤ rank as b) = true := by
    apply ((rank_increasing hn).sublist hk).imp
    intro a b hlt
    exact decide_eq_true (Nat.le_of_lt hlt)
  apply hperm.eq_of_pairwise _ hsorted hkept
  intro a b ha hb hab hba
  have ha' : a ∈ as := hk.subset (hperm.subset ha)
  have hb' : b ∈ as := hk.subset hb
  exact rank_injective hn ha' hb' (Nat.le_antisymm (of_decide_eq_true hab) (of_decide_eq_true hba))

theorem available_sublist (answers : List (Analyzer × Bool)) :
    (available answers).Sublist (answers.map (·.1)) := List.filter_sublist.map _

theorem unavailable_sublist (answers : List (Analyzer × Bool)) :
    (unavailable answers).Sublist (answers.map (·.1)) := List.filter_sublist.map _

theorem available_append_perm (answers : List (Analyzer × Bool)) :
    (available answers ++ unavailable answers).Perm (answers.map (·.1)) := by
  rw [available, unavailable, ← List.map_append]
  exact (List.filter_append_perm (·.2) answers).map _

/-- The analyzers that are ready stand as they were selected, and every other one that was selected
is missing. -/
theorem precheck_ready (hn : (as.map (·.name)).Nodup) {autoInstall : Bool}
    (hp : (h.precheck as autoInstall).on w = (.ok p, w')) :
    p.ready.Sublist as ∧ (p.ready ++ p.missing).Perm as := by
  obtain ⟨answers, u, hprobed⟩ := probeAll_answers h as w
  have has := h.probeAll_analyzers hprobed
  have hready : (available answers).Sublist as := has ▸ available_sublist answers
  have hall : (available answers ++ unavailable answers).Perm as :=
    has ▸ available_append_perm answers
  rw [precheck_on h hprobed] at hp
  by_cases hnone : unavailable answers = []
  · rw [if_pos hnone] at hp
    rw [hnone] at hall
    cases hp
    exact ⟨hready, hall⟩
  · rw [if_neg hnone] at hp
    cases autoInstall with
    | false =>
      cases hp
      exact ⟨hready, hall⟩
    | true =>
      obtain ⟨attempts, hattempts, rfl⟩ := map_eq_ok.mp (congrArg Prod.fst hp)
      obtain ⟨hmissing, -⟩ := installAll_ok_iff.mp (Prod.ext hattempts rfl)
      have hparted := available_append_perm attempts
      rw [hmissing] at hparted
      have hkept : (available answers ++ available attempts).Sublist
          (available answers ++ unavailable answers) := by
        apply List.Sublist.append_left
        rw [← hmissing]
        exact available_sublist attempts
      obtain ⟨kept, hperm, hsub⟩ := List.exists_perm_sublist hkept hall
      have hordered := inOrderOf_eq hn hsub hperm.symm
      dsimp only
      rw [hordered]
      refine ⟨hsub, ?_⟩
      have hfirst := hperm.append_right (unavailable attempts)
      rw [List.append_assoc] at hfirst
      exact hfirst.trans ((hparted.append_left _).trans hall)

end CodeAudit.Host
