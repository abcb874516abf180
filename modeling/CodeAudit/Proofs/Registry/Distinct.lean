import CodeAudit.Proofs.Text.Order
import CodeAudit.Registry
namespace CodeAudit.Registry

theorem nodup_eraseDups (words : List String) : words.eraseDups.Nodup := by
  induction hk : words.length using Nat.strongRecOn generalizing words with
  | ind k ih =>
    cases words with
    | nil => simp
    | cons w rest =>
      have hshort : (rest.filter fun v => !v == w).length < k := by
        have hle := List.length_filter_le (fun v => !v == w) rest
        rw [List.length_cons] at hk
        omega
      rw [List.eraseDups_cons, List.nodup_cons, List.mem_eraseDups]
      exact ⟨by simp, ih _ hshort _ rfl⟩

@[simp] theorem mem_sortedDistinct (words : List String) (w : String) :
    w ∈ sortedDistinct words ↔ w ∈ words := by
  rw [sortedDistinct, List.mem_mergeSort, List.mem_eraseDups]

theorem sortedDistinct_nodup (words : List String) : (sortedDistinct words).Nodup :=
  (List.mergeSort_perm _ _).nodup_iff.mpr (nodup_eraseDups words)

theorem sortedDistinct_sorted (words : List String) :
    (sortedDistinct words).Pairwise fun a b => Text.atMost a.toList b.toList = true :=
  List.pairwise_mergeSort (fun (a b c : String) => Text.atMost_trans a.toList b.toList c.toList)
    (fun (a b : String) => by simpa using Text.atMost_total a.toList b.toList) _

/-- Each word comes once, and before it only words that are smaller by their code points. -/
theorem sortedDistinct_increasing (words : List String) :
    (sortedDistinct words).Pairwise fun a b => Text.Precedes a.toList b.toList := by
  apply ((sortedDistinct_sorted words).and (sortedDistinct_nodup words)).imp
  intro a b h
  obtain ⟨hle, hne⟩ := h
  exact Text.precedes_of_atMost hle fun h => hne (String.toList_inj.mp h)

/-- The words in order depend only on which words there are. -/
theorem sortedDistinct_congr {words others : List String} (h : ∀ w, w ∈ words ↔ w ∈ others) :
    sortedDistinct words = sortedDistinct others := by
  have hperm : (sortedDistinct words).Perm (sortedDistinct others) := by
    rw [List.perm_ext_iff_of_nodup (sortedDistinct_nodup words) (sortedDistinct_nodup others)]
    simpa using h
  refine hperm.eq_of_pairwise ?_ (sortedDistinct_sorted words) (sortedDistinct_sorted others)
  intro a b _ _ hab hba
  exact String.toList_inj.mp (Text.atMost_antisymm hab hba)

end CodeAudit.Registry
