import CodeAudit.Data.Basic
import Mathlib.Data.List.Nodup
namespace CodeAudit.Fields

variable {μ : Type} (fields later : Fields μ)

theorem find?_cons (name n : String) (v : Data μ) :
    find? name ((n, v) :: fields) = if name = n then some v else fields.find? name := by
  by_cases h : name = n
  · simp [find?, h]
  · simp [find?, List.lookup_cons, beq_eq_false_iff_ne.mpr h, h]

theorem mem_names_iff (name : String) : name ∈ fields.names ↔ ∃ v, fields.find? name = some v := by
  rw [← Option.isSome_iff_exists, find?, List.lookup_isSome_iff, names]
  simp

theorem mem_of_find? {fields : Fields μ} {name : String} {v : Data μ}
    (h : fields.find? name = some v) : (name, v) ∈ fields := by
  obtain ⟨before, after, rfl, -⟩ := List.lookup_eq_some_iff.mp h
  exact List.mem_append_right _ List.mem_cons_self

/-- A name that is new is put after the others. -/
theorem put_of_nodup {name : String} {v : Data μ} {done : Fields μ} {more : List String}
    (h : (done.names ++ name :: more).Nodup) : put name v done = done ++ [(name, v)] := by
  have hnew : name ∉ done.names := by
    rw [List.nodup_middle, List.nodup_cons] at h
    exact fun hmem => h.1 (List.mem_append_left _ hmem)
  clear h
  induction done with
  | nil => rfl
  | cons f rest ih =>
    obtain ⟨n, w⟩ := f
    have hne : n ≠ name := fun hsame => hnew (hsame ▸ List.mem_cons_self)
    have hput := ih fun hmem => hnew (List.mem_cons_of_mem n hmem)
    rw [put, if_neg hne, hput]
    rfl

theorem names_put (name : String) (v : Data μ) :
    names (put name v fields) =
      if name ∈ fields.names then fields.names else fields.names ++ [name] := by
  induction fields with
  | nil => rfl
  | cons f rest ih =>
    obtain ⟨n, w⟩ := f
    by_cases hn : n = name
    · simp [put, names, hn]
    · simp only [names] at ih
      by_cases hmem : name ∈ rest.map (·.1) <;> simp [put, names, hn, Ne.symm hn, ih, hmem]

theorem mem_names_put (name other : String) (v : Data μ) :
    other ∈ names (put name v fields) ↔ other = name ∨ other ∈ fields.names := by
  rw [names_put]
  split <;> grind

theorem nodup_put (name : String) (v : Data μ) (h : fields.names.Nodup) :
    (names (put name v fields)).Nodup := by
  rw [names_put]
  split
  · exact h
  · exact List.nodup_append.mpr ⟨h, by simp, by grind⟩

theorem forall_put {P : Data μ → Prop} {fields : Fields μ} {name : String} {v : Data μ}
    (hfields : ∀ p ∈ fields, P p.2) (hv : P v) : ∀ p ∈ put name v fields, P p.2 := by
  induction fields with
  | nil => exact List.forall_mem_singleton.mpr hv
  | cons f rest ih =>
    obtain ⟨hf, hrest⟩ := List.forall_mem_cons.mp hfields
    rw [put]
    split
    · exact List.forall_mem_cons.mpr ⟨hv, hrest⟩
    · exact List.forall_mem_cons.mpr ⟨hf, ih hrest⟩

theorem mem_names_putAll (name : String) :
    name ∈ names (putAll fields later) ↔ name ∈ later.names ∨ name ∈ fields.names := by
  induction later generalizing fields with
  | nil => simp [putAll, names]
  | cons f rest ih =>
    obtain ⟨n, v⟩ := f
    refine (ih (put n v fields)).trans ?_
    have hcons : name ∈ names ((n, v) :: rest) ↔ name = n ∨ name ∈ names rest := List.mem_cons
    rw [mem_names_put, hcons]
    tauto

theorem nodup_putAll (h : fields.names.Nodup) : (names (putAll fields later)).Nodup := by
  induction later generalizing fields with
  | nil => exact h
  | cons f rest ih => exact ih _ (nodup_put fields f.1 f.2 h)

/-- Of fields written one after the other the last of a name counts, and what was there before
them counts least. -/
theorem find?_putAll (name : String) :
    (putAll fields later).find? name = (find? name later.reverse).or (fields.find? name) := by
  induction later generalizing fields with
  | nil => rfl
  | cons f rest ih =>
    obtain ⟨n, v⟩ := f
    have hput : (put n v fields).find? name = (find? name [(n, v)]).or (fields.find? name) := by
      rw [find?_cons, find?, lookup_put]
      split <;> rfl
    refine (ih (put n v fields)).trans ?_
    rw [hput, List.reverse_cons, ← Option.or_assoc, find?, find?, ← List.lookup_append]
    rfl

section
variable {fields} (h : fields.names.Nodup)
include h

/-- Where no name stands twice, what is in a record is what is found in it. -/
theorem find?_eq_some_iff (name : String) (v : Data μ) :
    fields.find? name = some v ↔ (name, v) ∈ fields := by
  induction fields with
  | nil => simp [find?]
  | cons f rest ih =>
    obtain ⟨n, w⟩ := f
    obtain ⟨hnew, hrest⟩ := List.nodup_cons.mp h
    rw [find?_cons, List.mem_cons, Prod.mk.injEq, ← ih hrest]
    by_cases hn : name = n
    · have hnone : find? n rest ≠ some v := fun hf => hnew ((mem_names_iff rest n).mpr ⟨v, hf⟩)
      simp [hn, hnone, eq_comm]
    · simp [hn]

theorem find?_reverse (name : String) : find? name fields.reverse = fields.find? name := by
  have hback : (names fields.reverse).Nodup := by
    rw [names, List.map_reverse, List.nodup_reverse]
    exact h
  apply Option.ext
  intro v
  rw [find?_eq_some_iff hback, find?_eq_some_iff h, List.mem_reverse]

/-- Where no name stands twice, leaving out values leaves the other fields as they are. -/
theorem find?_filter (keep : Data μ → Bool) (name : String) :
    find? name (fields.filter fun f => keep f.2) = (fields.find? name).filter keep := by
  have hkept : (names (fields.filter fun f => keep f.2)).Nodup :=
    h.sublist (List.filter_sublist.map _)
  apply Option.ext
  intro v
  rw [find?_eq_some_iff hkept, List.mem_filter, ← find?_eq_some_iff h, Option.filter_eq_some_iff]

end
end CodeAudit.Fields
