import CodeAudit.Analyzer.Catalog
import CodeAudit.Proofs.Registry.Distinct
import CodeAudit.Proofs.Text.Case
namespace CodeAudit.Registry

/-- Whether an analyzer is meant by a request for files of some endings: it looks at one of them,
and it is asked for by name, or nothing is and it does not wait to be asked. -/
def Meant (extensions requested : List String) (a : Analyzer) : Prop :=
  (∃ e ∈ extensions, e ∈ a.extensions) ∧
    (requested = [] ∧ a.optIn = false ∨ ∃ n ∈ requested, Text.lower n = a.name)

instance (extensions requested : List String) (a : Analyzer) :
    Decidable (Meant extensions requested a) :=
  inferInstanceAs (Decidable (_ ∧ _))

theorem isRelevant_iff (a : Analyzer) (extensions : List String) :
    a.isRelevant extensions = true ↔ ∃ e ∈ extensions, e ∈ a.extensions := by
  simp only [Analyzer.isRelevant, List.any_eq_true, List.contains_iff_mem]
  exact ⟨fun ⟨e, ha, he⟩ => ⟨e, he, ha⟩, fun ⟨e, he, ha⟩ => ⟨e, ha, he⟩⟩

variable (r : Registry) (extensions requested : List String)

/-- The names asked for, in small letters, that are not registered. -/
def strangers : List String :=
  sortedDistinct ((requested.map Text.lower).filter (!r.contains ·))

theorem mem_strangers (n : String) :
    n ∈ r.strangers requested ↔ n ∉ r.names ∧ ∃ m ∈ requested, Text.lower m = n := by
  simp [strangers, contains, and_comm]

theorem strangers_eq_nil_iff :
    r.strangers requested = [] ↔ ∀ n ∈ requested, Text.lower n ∈ r.names := by
  rw [List.eq_nil_iff_forall_not_mem]
  simp only [mem_strangers]
  grind

/-- Where all names that are asked for are registered, the analyzers that are meant are selected. -/
theorem select_of_known (h : r.strangers requested = []) :
    r.select extensions requested =
      .ok (r.analyzers.filter fun a => decide (Meant extensions requested a)) := by
  have hknown : ¬ r.strangers requested ≠ [] := not_not.mpr h
  rw [select]
  refine (if_neg hknown).trans (congrArg Except.ok (List.filter_congr fun a _ => ?_))
  rw [Bool.eq_iff_iff, Bool.and_eq_true, isRelevant_iff, decide_eq_true_iff, Meant]
  refine and_congr_right fun _ => ?_
  cases requested with
  | nil => simp
  | cons n rest =>
    have hnamed : (if ((n :: rest).map Text.lower).isEmpty then !a.optIn
        else ((n :: rest).map Text.lower).contains a.name) =
        ((n :: rest).map Text.lower).contains a.name := rfl
    rw [hnamed, List.contains_iff_mem, List.mem_map]
    simp only [reduceCtorEq, false_and, false_or]

theorem select_of_strangers (h : r.strangers requested ≠ []) :
    r.select extensions requested = .error (.unknownTools (r.strangers requested) r.names) :=
  if_pos h

theorem meant_congr {extensions' requested' : List String}
    (he : ∀ e, e ∈ extensions' ↔ e ∈ extensions)
    (hn : ∀ n, n ∈ requested'.map Text.lower ↔ n ∈ requested.map Text.lower) (a : Analyzer) :
    Meant extensions' requested' a ↔ Meant extensions requested a := by
  have hmapped : requested'.map Text.lower = [] ↔ requested.map Text.lower = [] := by
    rw [List.eq_nil_iff_forall_not_mem, List.eq_nil_iff_forall_not_mem]
    exact forall_congr' fun n => not_congr (hn n)
  have hnone : requested' = [] ↔ requested = [] := by
    rwa [List.map_eq_nil_iff, List.map_eq_nil_iff] at hmapped
  have hname := hn a.name
  rw [List.mem_map, List.mem_map] at hname
  simp only [Meant, he, hnone, hname]

/-- What is selected depends only on which endings there are, and on which names are asked for in
small letters. -/
theorem select_congr {extensions' requested' : List String}
    (he : ∀ e, e ∈ extensions' ↔ e ∈ extensions)
    (hn : ∀ n, n ∈ requested'.map Text.lower ↔ n ∈ requested.map Text.lower) :
    r.select extensions' requested' = r.select extensions requested := by
  have hstrangers : r.strangers requested' = r.strangers requested :=
    sortedDistinct_congr fun w => by rw [List.mem_filter, List.mem_filter, hn]
  by_cases h : r.strangers requested = []
  · rw [select_of_known r _ _ h, select_of_known r _ _ (hstrangers.trans h)]
    simp only [meant_congr extensions requested he hn]
  · rw [select_of_strangers r _ _ h, select_of_strangers r _ _ (hstrangers ▸ h), hstrangers]

theorem map_lower_congr {recased requested : List String}
    (h : List.Forall₂ Text.Recased recased requested) :
    recased.map Text.lower = requested.map Text.lower := by
  induction h with
  | nil => rfl
  | cons hcase _ ih => rw [List.map_cons, List.map_cons, hcase.lower_eq, ih]

/-- A request is refused exactly if it names a stranger, whatever the endings; it is refused with
all strangers in order and with all that is registered. Otherwise just the analyzers that are meant
are selected, in the order of the registry. Neither depends on how often, in which order or in which
case something is asked for. -/
theorem select_exact :
    ((∃ f, r.select extensions requested = .error f) ↔
      ∃ n ∈ requested, Text.lower n ∉ r.names) ∧
    (∀ f, r.select extensions requested = .error f → ∃ unknown,
      f = .unknownTools unknown r.names ∧
      unknown.Pairwise (fun a b => Text.Precedes a.toList b.toList) ∧
      ∀ n, n ∈ unknown ↔ n ∉ r.names ∧ ∃ m ∈ requested, Text.lower m = n) ∧
    (∀ selected, r.select extensions requested = .ok selected →
      selected = r.analyzers.filter fun a => decide (Meant extensions requested a)) ∧
    (∀ extensions' requested', (∀ e, e ∈ extensions' ↔ e ∈ extensions) →
      (∀ n, n ∈ requested'.map Text.lower ↔ n ∈ requested.map Text.lower) →
      r.select extensions' requested' = r.select extensions requested) ∧
    ∀ recased, List.Forall₂ Text.Recased recased requested →
      r.select extensions recased = r.select extensions requested := by
  have hstrangers := r.strangers_eq_nil_iff requested
  refine ⟨?_, ?_, ?_, ?_, ?_⟩
  · by_cases h : r.strangers requested = []
    · rw [select_of_known r _ _ h]
      simpa using hstrangers.mp h
    · rw [select_of_strangers r _ _ h]
      simpa using mt hstrangers.mpr h
  · intro f hf
    by_cases h : r.strangers requested = []
    · rw [select_of_known r _ _ h] at hf
      cases hf
    · rw [select_of_strangers r _ _ h] at hf
      cases hf
      exact ⟨_, rfl, sortedDistinct_increasing _, r.mem_strangers requested⟩
  · intro selected hs
    by_cases h : r.strangers requested = []
    · rw [select_of_known r _ _ h] at hs
      exact (Except.ok.inj hs).symm
    · rw [select_of_strangers r _ _ h] at hs
      cases hs
  · intro extensions' requested' he hn
    exact r.select_congr extensions requested he hn
  · intro recased h
    exact r.select_congr extensions requested (fun _ => .rfl) fun n => by rw [map_lower_congr h]

theorem select_exact_mixed :
    (∃ unknown, builtin.select [".py"] ["zz", "RUFF", "Aa", "ZZ"] =
        .error (.unknownTools unknown builtin.names) ∧
      ∀ n, n ∈ unknown ↔ n = "aa" ∨ n = "zz") ∧
    (∃ selected, builtin.select [".py", ".ts", ".py"] ["typos", "ruff", "typos"] = .ok selected ∧
      selected.map (·.name) = ["ruff", "typos"]) ∧
    builtin.select [".py", ".ts", ".py"] ["typos", "ruff", "typos"] =
      builtin.select [".ts", ".py"] ["Ruff", "TYPOS"] := by
  refine ⟨?_, ?_, ?_⟩
  · obtain ⟨hrefused, hfault, -⟩ := select_exact builtin [".py"] ["zz", "RUFF", "Aa", "ZZ"]
    obtain ⟨f, hf⟩ := hrefused.mpr ⟨"zz", by decide⟩
    obtain ⟨unknown, rfl, -, hmem⟩ := hfault f hf
    refine ⟨unknown, hf, fun n => ?_⟩
    have hlower : ["zz", "RUFF", "Aa", "ZZ"].map Text.lower = ["zz", "ruff", "aa", "zz"] := by
      decide
    rw [hmem, ← List.mem_map, hlower]
    constructor
    · rintro ⟨hn, hasked⟩
      have hruff : n ≠ "ruff" := fun h => hn (h ▸ by decide)
      simp only [List.mem_cons, List.not_mem_nil, or_false] at hasked
      tauto
    · rintro (rfl | rfl) <;> decide
  · obtain ⟨hrefused, -, hselected, -⟩ :=
      select_exact builtin [".py", ".ts", ".py"] ["typos", "ruff", "typos"]
    cases hs : builtin.select [".py", ".ts", ".py"] ["typos", "ruff", "typos"] with
    | error f => exact absurd (hrefused.mp ⟨f, hs⟩) (by decide)
    | ok selected =>
      refine ⟨selected, rfl, ?_⟩
      rw [hselected selected hs]
      decide
  · obtain ⟨-, -, -, hsame, -⟩ := select_exact builtin [".ts", ".py"] ["Ruff", "TYPOS"]
    have hlower : ["Ruff", "TYPOS"].map Text.lower = ["ruff", "typos"] ∧
        ["typos", "ruff", "typos"].map Text.lower = ["typos", "ruff", "typos"] := by
      decide
    refine hsame _ _ (fun e => ?_) fun n => ?_
    · simp only [List.mem_cons, List.not_mem_nil]
      tauto
    · rw [hlower.1, hlower.2]
      simp only [List.mem_cons, List.not_mem_nil]
      tauto

end CodeAudit.Registry
