import CodeAudit.Proofs.Scan.Inventory
import CodeAudit.ToolConfig.Search
namespace CodeAudit.ToolConfig

section
variable (tool : String) (target user bundled : Path)

/-- What is looked at in a step of the search, and where that is: the local names in the target
come first, in their order, and then the default, if there is one, in the user's directory and in
the one that comes with the program. -/
inductive Candidate : Nat → Tier → Path → Prop
  | target {i : Nat} {n : String} (hn : (localNames tool)[i]? = some n) :
    Candidate i .target (target.child n)
  | userDefault {n : String} (hn : defaultName? tool = some n) :
    Candidate (localNames tool).length .userDefault (user.child n)
  | bundledDefault {n : String} (hn : defaultName? tool = some n) :
    Candidate ((localNames tool).length + 1) .bundledDefault (bundled.child n)

/-- The first step of the search that comes upon something readable. -/
structure FirstAt (readable : Path → Bool) (i : Nat) (tier : Tier) (path : Path) : Prop where
  candidate : Candidate tool target user bundled i tier path
  found : readable path = true
  earlier : ∀ j < i, ∀ tier' path', Candidate tool target user bundled j tier' path' →
    readable path' = false

end

variable {tool : String} {target user bundled : Path}

theorem candidates_getElem? {i : Nat} {tier : Tier} {path : Path} :
    (candidates tool target user bundled)[i]? = some (tier, path) ↔
      Candidate tool target user bundled i tier path := by
  have hlength : ((localNames tool).map fun n => (Tier.target, target.child n)).length =
    (localNames tool).length := List.length_map _
  constructor
  · intro h
    by_cases hi : i < (localNames tool).length
    · rw [candidates, List.getElem?_append_left (hlength ▸ hi), List.getElem?_map,
        Option.map_eq_some_iff] at h
      obtain ⟨n, hn, heq⟩ := h
      cases heq
      exact .target hn
    · obtain ⟨k, rfl⟩ := Nat.exists_eq_add_of_le (Nat.le_of_not_lt hi)
      rw [candidates, List.getElem?_append_right (hlength ▸ Nat.le_add_right _ _), hlength,
        Nat.add_sub_cancel_left] at h
      cases hdefault : defaultName? tool with
      | none =>
        rw [hdefault] at h
        cases h
      | some n =>
        rw [hdefault] at h
        obtain _ | _ | k := k
        · cases h
          exact .userDefault hdefault
        · cases h
          exact .bundledDefault hdefault
        · cases h
  · intro h
    cases h with
    | target hn =>
      obtain ⟨hi, -⟩ := List.getElem?_eq_some_iff.mp hn
      rw [candidates, List.getElem?_append_left (hlength ▸ hi), List.getElem?_map, hn]
      rfl
    | userDefault hn =>
      rw [candidates, List.getElem?_append_right (hlength ▸ Nat.le_refl _), hlength, hn,
        Nat.sub_self]
      rfl
    | bundledDefault hn =>
      rw [candidates, List.getElem?_append_right (hlength ▸ Nat.le_succ _), hlength, hn,
        Nat.add_sub_cancel_left]
      rfl

/-- In one step only one thing is looked at. -/
theorem Candidate.unique {i : Nat} {tier tier' : Tier} {path path' : Path}
    (h : Candidate tool target user bundled i tier path)
    (h' : Candidate tool target user bundled i tier' path') : tier' = tier ∧ path' = path := by
  have hsame := (candidates_getElem?.mpr h').symm.trans (candidates_getElem?.mpr h)
  exact Prod.mk.inj (Option.some.inj hsame)

theorem mem_candidates {tier : Tier} {path : Path} :
    (tier, path) ∈ candidates tool target user bundled ↔
      ∃ i, Candidate tool target user bundled i tier path := by
  rw [List.mem_iff_getElem?]
  exact exists_congr fun i => candidates_getElem?

theorem Candidate.tier_ne_nowhere {i : Nat} {tier : Tier} {path : Path}
    (h : Candidate tool target user bundled i tier path) : tier ≠ .nowhere := by
  cases h <;> decide

section
variable {readable : Path → Bool}

theorem find?_candidates {tier : Tier} {path : Path} :
    (candidates tool target user bundled).find? (readable ·.2) = some (tier, path) ↔
      ∃ i, FirstAt tool target user bundled readable i tier path := by
  rw [List.find?_eq_some_iff_getElem]
  constructor
  · rintro ⟨hfound, i, hi, hat, hearlier⟩
    refine ⟨i, candidates_getElem?.mp (List.getElem?_eq_some_iff.mpr ⟨hi, hat⟩), hfound, ?_⟩
    intro j hj tier' path' hc
    obtain ⟨hlt, hat'⟩ := List.getElem?_eq_some_iff.mp (candidates_getElem?.mpr hc)
    have hnot := hearlier j hj
    rw [hat'] at hnot
    simpa using hnot
  · rintro ⟨i, hc, hfound, hearlier⟩
    obtain ⟨hi, hat⟩ := List.getElem?_eq_some_iff.mp (candidates_getElem?.mpr hc)
    refine ⟨hfound, i, hi, hat, fun j hj => ?_⟩
    have hlt : j < (candidates tool target user bundled).length := Nat.lt_trans hj hi
    have hcand := candidates_getElem?.mp (List.getElem?_eq_getElem hlt)
    simpa using hearlier j hj _ _ hcand

theorem search_eq_iff {tier : Tier} {path : Path} :
    search readable tool target user bundled = ⟨some path, tier⟩ ↔
      ∃ i, FirstAt tool target user bundled readable i tier path := by
  rw [← find?_candidates, search]
  split
  · next t p hfind =>
    rw [hfind]
    simp [and_comm]
  · next hfind =>
    rw [hfind]
    simp

theorem search_eq_nowhere_iff :
    search readable tool target user bundled = ⟨none, .nowhere⟩ ↔
      ∀ i tier path, Candidate tool target user bundled i tier path → readable path = false := by
  have hnone : search readable tool target user bundled = ⟨none, .nowhere⟩ ↔
      (candidates tool target user bundled).find? (readable ·.2) = none := by
    rw [search]
    split
    · next t p hfind => simp [hfind]
    · next hfind => simp [hfind]
  rw [hnone, List.find?_eq_none]
  constructor
  · intro h i tier path hc
    simpa using h (tier, path) (mem_candidates.mpr ⟨i, hc⟩)
  · rintro h ⟨tier, path⟩ hmem
    obtain ⟨i, hc⟩ := mem_candidates.mp hmem
    simpa using h i tier path hc

/-- A search ends with what it found first, or with nothing. -/
theorem search_cases (readable : Path → Bool) (tool : String) (target user bundled : Path) :
    search readable tool target user bundled = ⟨none, .nowhere⟩ ∨
      ∃ i tier path, FirstAt tool target user bundled readable i tier path ∧
        search readable tool target user bundled = ⟨some path, tier⟩ := by
  cases hfind : (candidates tool target user bundled).find? (readable ·.2) with
  | none =>
    left
    rw [search, hfind]
  | some found =>
    obtain ⟨i, hfirst⟩ := find?_candidates.mp hfind
    exact .inr ⟨i, found.1, found.2, hfirst, search_eq_iff.mpr ⟨i, hfirst⟩⟩

theorem search_consistent (readable : Path → Bool) (tool : String) (target user bundled : Path) :
    (search readable tool target user bundled).Consistent := by
  obtain h | ⟨i, tier, path, hfirst, h⟩ := search_cases readable tool target user bundled
  · rw [h]
    decide
  · rw [h, Consistent]
    simpa using hfirst.candidate.tier_ne_nowhere

/-- Where more can be read, the same is found, or something new in an earlier step. -/
theorem search_mono {readable' : Path → Bool} (h : ∀ p, readable p = true → readable' p = true) :
    search readable' tool target user bundled = search readable tool target user bundled ∨
      ∃ i tier path, FirstAt tool target user bundled readable' i tier path ∧
        search readable' tool target user bundled = ⟨some path, tier⟩ ∧
        readable path = false ∧
        ∀ j tier' path', FirstAt tool target user bundled readable j tier' path' → i < j := by
  have hless : ∀ p, readable' p = false → readable p = false := by
    intro p hp
    exact Bool.eq_false_iff.mpr fun hreadable => Bool.eq_false_iff.mp hp (h p hreadable)
  obtain hnone | ⟨i, tier, path, hfirst, hfound⟩ := search_cases readable' tool target user bundled
  · left
    rw [hnone, eq_comm, search_eq_nowhere_iff]
    intro i tier path hc
    exact hless path (search_eq_nowhere_iff.mp hnone i tier path hc)
  · cases hpath : readable path with
    | true =>
      left
      have hsame : FirstAt tool target user bundled readable i tier path :=
        ⟨hfirst.candidate, hpath, fun j hj t p hc => hless p (hfirst.earlier j hj t p hc)⟩
      rw [hfound, search_eq_iff.mpr ⟨i, hsame⟩]
    | false =>
      refine .inr ⟨i, tier, path, hfirst, hfound, hpath, fun j tier' path' hj => ?_⟩
      have hreadable := h path' hj.found
      obtain hlt | rfl | hlt := Nat.lt_trichotomy j i
      · rw [hfirst.earlier j hlt tier' path' hj.candidate] at hreadable
        cases hreadable
      · obtain ⟨-, rfl⟩ := hfirst.candidate.unique hj.candidate
        rw [hj.found] at hpath
        cases hpath
      · exact hlt

end

/-- The search ends with what is readable in the earliest step, with the tier of that step, and
with nothing exactly if nothing that it looks at is readable; its answer always passes its own
check. Where more can be read, it ends the same way or in an earlier step. -/
theorem search_first (readable : Path → Bool) (tool : String) (target user bundled : Path) :
    (∀ path tier, search readable tool target user bundled = ⟨some path, tier⟩ ↔
      ∃ i, FirstAt tool target user bundled readable i tier path) ∧
    ((search readable tool target user bundled).path = none ↔
      ∀ i tier path, Candidate tool target user bundled i tier path → readable path = false) ∧
    ((search readable tool target user bundled).tier = .nowhere ↔
      ∀ i tier path, Candidate tool target user bundled i tier path → readable path = false) ∧
    (search readable tool target user bundled).check =
      .ok (search readable tool target user bundled) ∧
    ∀ readable' : Path → Bool, (∀ p, readable p = true → readable' p = true) →
      search readable' tool target user bundled = search readable tool target user bundled ∨
      ∃ i tier path, FirstAt tool target user bundled readable' i tier path ∧
        search readable' tool target user bundled = ⟨some path, tier⟩ ∧ readable path = false ∧
        ∀ j tier' path', FirstAt tool target user bundled readable j tier' path' → i < j := by
  have hconsistent := search_consistent readable tool target user bundled
  have hpath : (search readable tool target user bundled).path = none ↔
      ∀ i tier path, Candidate tool target user bundled i tier path → readable path = false := by
    rw [← search_eq_nowhere_iff]
    constructor
    · intro hnone
      have htier := hconsistent.mp hnone
      rw [← hnone, ← htier]
    · intro h
      rw [h]
  exact ⟨fun path tier => search_eq_iff, hpath, hconsistent.symm.trans hpath, if_pos hconsistent,
    fun readable' h => search_mono h⟩

/-- A project, and a default that comes with the program. -/
def projectTree : FileTree :=
  .directory [("repo", .directory [("pyproject.toml", .file [] false)]),
    ("bundled", .directory [("ruff.toml", .file [] false)])]

open Host in
theorem search_first_project :
    let readable := fun p =>
      (projectTree.isReadable p (sampleHost.place p)).toOption.getD true
    let more := fun p => readable p || p == sampleRoot.child ".ruff.toml"
    let project : ToolConfig := ⟨some (sampleRoot.child "pyproject.toml"), .target⟩
    sampleHost.configOf projectTree "ruff" sampleRoot none none = .ok project ∧
      project.check = .ok project ∧
      (∃ i, FirstAt "ruff" sampleRoot sampleHost.userDefaults sampleHost.bundled readable i .target
        (sampleRoot.child "pyproject.toml")) ∧
      ∃ i tier path,
        FirstAt "ruff" sampleRoot sampleHost.userDefaults sampleHost.bundled more i tier path ∧
        path = sampleRoot.child ".ruff.toml" ∧ ∀ j tier' path', FirstAt "ruff" sampleRoot
          sampleHost.userDefaults sampleHost.bundled readable j tier' path' → i < j := by
  intro readable more project
  have hfound : search readable "ruff" sampleRoot sampleHost.userDefaults sampleHost.bundled =
    project := by decide
  have hconfig : (sampleHost.configOf projectTree "ruff" sampleRoot none none).toOption =
    some project := by decide
  have hdotted : search more "ruff" sampleRoot sampleHost.userDefaults sampleHost.bundled =
    ⟨some (sampleRoot.child ".ruff.toml"), .target⟩ := by decide
  obtain ⟨hfirst, -, -, hcheck, hmore⟩ :=
    search_first readable "ruff" sampleRoot sampleHost.userDefaults sampleHost.bundled
  rw [hfound] at hcheck
  refine ⟨toOption_eq_some.mp hconfig, hcheck, (hfirst _ _).mp hfound, ?_⟩
  obtain hsame | ⟨i, tier, path, hat, hresult, -, hearlier⟩ :=
    hmore more fun p hp => by simp [more, hp]
  · rw [hdotted, hfound] at hsame
    exact absurd hsame (by decide)
  · obtain ⟨hpath, -⟩ := ToolConfig.mk.inj (hdotted.symm.trans hresult)
    exact ⟨i, tier, path, hat, (Option.some.inj hpath).symm, hearlier⟩

end CodeAudit.ToolConfig
