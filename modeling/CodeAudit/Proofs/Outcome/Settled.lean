import CodeAudit.Proofs.Outcome.Local
import CodeAudit.Proofs.Path.Relative
namespace CodeAudit.Outcome
variable (directory : Path) (scope : Scope)

theorem mem_localFindings {findings : List Finding} {g : Finding} :
    g ∈ localFindings directory scope findings ↔
      ∃ f ∈ findings, scope.covers (directory.relativize f.file) = true ∧
        g = { f with file := directory.relativize f.file } := by
  rw [localFindings, List.mem_filter, List.mem_map]
  constructor
  · intro h
    obtain ⟨⟨f, hf, rfl⟩, hcovers⟩ := h
    exact ⟨f, hf, hcovers, rfl⟩
  · intro h
    obtain ⟨f, hf, hcovers, rfl⟩ := h
    exact ⟨⟨f, hf, rfl⟩, hcovers⟩

/-- Reading findings from a directory leaves exactly those as they are that are local and count. -/
theorem localFindings_eq_self_iff (findings : List Finding) :
    localFindings directory scope findings = findings ↔
      ∀ f ∈ findings, Path.IsLocal f.file ∧ scope.covers f.file = true := by
  induction findings with
  | nil => simp [localFindings]
  | cons f rest ih =>
    rw [localFindings_cons, List.forall_mem_cons, ← ih]
    by_cases hcovers : scope.covers (directory.relativize f.file) = true
    · rw [if_pos hcovers]
      constructor
      · intro h
        obtain ⟨hf, hrest⟩ := List.cons.inj h
        have hfile : directory.relativize f.file = f.file := congrArg Finding.file hf
        have hlocal := (directory.relativize_eq_self_iff f.file).mp hfile
        exact ⟨⟨hlocal, hfile ▸ hcovers⟩, hrest⟩
      · intro h
        obtain ⟨⟨hlocal, -⟩, hrest⟩ := h
        rw [hrest, (directory.relativize_eq_self_iff f.file).mpr hlocal]
    · rw [if_neg hcovers]
      constructor
      · intro h
        have hle : (localFindings directory scope rest).length ≤ rest.length := by
          refine Nat.le_trans (List.length_filter_le _ _) ?_
          exact Nat.le_of_eq (List.length_map _)
        have hlength := congrArg List.length h
        rw [List.length_cons] at hlength
        omega
      · intro h
        obtain ⟨⟨hlocal, hcounts⟩, -⟩ := h
        rw [(directory.relativize_eq_self_iff f.file).mpr hlocal] at hcovers
        exact absurd hcounts hcovers

variable (o : Outcome)

theorem localize_of_no_error (he : o.error = none) :
    o.localize directory scope =
      { o with findings := localFindings directory scope o.findings } := by
  simp [localize, he, localFindings]

theorem localize_eq_self_iff :
    o.localize directory scope = o ↔
      (o.error = none → ∀ f ∈ o.findings, Path.IsLocal f.file ∧ scope.covers f.file = true) := by
  cases he : o.error with
  | some e => simp [localize, he]
  | none =>
    rw [← localFindings_eq_self_iff directory, localize_of_no_error directory scope o he]
    constructor
    · intro h _
      exact congrArg Outcome.findings h
    · intro h
      rw [h rfl]

/-- A second reading changes an outcome exactly if a finding that counts is not local. -/
theorem localize_localize_iff :
    (o.localize directory scope).localize directory scope = o.localize directory scope ↔
      (o.error = none → ∀ f ∈ (o.localize directory scope).findings, Path.IsLocal f.file) := by
  rw [localize_eq_self_iff, localize_error]
  refine imp_congr_right fun he => forall₂_congr fun g hg => and_iff_left ?_
  rw [findings_localize directory scope o he] at hg
  obtain ⟨f, -, hcovers, rfl⟩ := (mem_localFindings directory scope).mp hg
  exact hcovers

theorem isLocal_localize_iff (he : o.error = none) :
    (∀ f ∈ (o.localize directory scope).findings, Path.IsLocal f.file) ↔
      ∀ f ∈ o.findings, scope.covers (directory.relativize f.file) = true →
        ¬ directory.Misread f.file := by
  rw [findings_localize directory scope o he]
  constructor
  · intro h f hf hcovers
    let g : Finding := { f with file := directory.relativize f.file }
    have hmem : g ∈ localFindings directory scope o.findings :=
      (mem_localFindings directory scope).mpr ⟨f, hf, hcovers, rfl⟩
    have hlocal : Path.IsLocal g.file := h g hmem
    exact (directory.isLocal_relativize_iff f.file).mp hlocal
  · intro h g hg
    obtain ⟨f, hf, hcovers, rfl⟩ := (mem_localFindings directory scope).mp hg
    exact (directory.isLocal_relativize_iff f.file).mpr (h f hf hcovers)

/-- All findings of outcomes without an error are local once they are read from a directory, and a
second reading changes nothing, exactly if none of those that count is misread: none is given by a
text that begins with a backslash, or by one from the root on that keeps a name with a backslash. -/
theorem localize_settled (os : List Outcome) :
    let once := os.map (localize directory scope)
    let sound := ∀ o ∈ os, o.error = none → ∀ f ∈ o.findings,
      scope.covers (directory.relativize f.file) = true → ¬ directory.Misread f.file
    ((∀ o ∈ once, o.error = none → ∀ f ∈ o.findings, Path.IsLocal f.file) ↔ sound) ∧
      (once.map (localize directory scope) = once ↔ sound) := by
  intro once sound
  have hlocal : (∀ o ∈ once, o.error = none → ∀ f ∈ o.findings, Path.IsLocal f.file) ↔ sound := by
    rw [List.forall_mem_map]
    refine forall₂_congr fun o _ => ?_
    rw [localize_error]
    exact imp_congr_right fun he => isLocal_localize_iff directory scope o he
  refine ⟨hlocal, ?_⟩
  rw [← hlocal, List.map_map, List.map_inj_left, List.forall_mem_map]
  refine forall₂_congr fun o _ => ?_
  rw [localize_error]
  exact localize_localize_iff directory scope o

end CodeAudit.Outcome
