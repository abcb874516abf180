import CodeAudit.Outcome.Local
namespace CodeAudit

/-- A path is matched by its text with the backslashes turned, whichever way they stand in it. -/
theorem Pattern.turned_ofList_turned (path : String) :
    turned (String.ofList (turned path)) = turned path := by
  rw [turned, String.toList_ofList, turned, List.map_map]
  apply List.map_congr_left
  intro c _
  by_cases hc : c = '\\' <;> simp [hc]

theorem IgnoreFilter.ignores_turned (f : IgnoreFilter) (path : String) :
    f.ignores (String.ofList (Pattern.turned path)) = f.ignores path := by
  simp only [ignores, Pattern.turned_ofList_turned]

theorem IncludeFilter.includes_turned (f : IncludeFilter) (path : String) :
    f.includes (String.ofList (Pattern.turned path)) = f.includes path := by
  simp only [includes, Pattern.turned_ofList_turned]

theorem Scope.covers_turned (s : Scope) (path : String) :
    s.covers (String.ofList (Pattern.turned path)) = s.covers path := by
  simp only [covers, IgnoreFilter.ignores_turned, IncludeFilter.includes_turned]

theorem Scope.covers_iff (s : Scope) (path : String) :
    s.covers path = true ↔
      s.ignore.ignores path = false ∧ ∀ only, s.only = some only → only.includes path = true := by
  rw [covers, Bool.and_eq_true, Bool.not_eq_true']
  cases s.only with
  | none => simp
  | some only => simp

theorem Scope.covers_eq_false_iff (s : Scope) (path : String) :
    s.covers path = false ↔
      (∃ only, s.only = some only ∧ only.includes path = false) ∨
        s.ignore.ignores path = true := by
  rw [covers, Bool.and_eq_false_iff, Bool.not_eq_false', or_comm]
  cases s.only with
  | none => simp
  | some only => simp

namespace Outcome
variable (directory : Path) (scope : Scope) (o : Outcome)

@[simp] theorem localize_error : (o.localize directory scope).error = o.error := by
  unfold localize
  split <;> rfl

/-- Findings as read from a directory, without those in files that do not count. -/
def localFindings (findings : List Finding) : List Finding :=
  (findings.map fun f => { f with file := directory.relativize f.file }).filter
    (scope.covers ·.file)

theorem localFindings_append (before after : List Finding) :
    localFindings directory scope (before ++ after) =
      localFindings directory scope before ++ localFindings directory scope after := by
  simp [localFindings]

theorem localFindings_cons (f : Finding) (rest : List Finding) :
    localFindings directory scope (f :: rest) =
      if scope.covers (directory.relativize f.file) then
        { f with file := directory.relativize f.file } :: localFindings directory scope rest
      else localFindings directory scope rest := by
  simp only [localFindings, List.map_cons, List.filter_cons]

theorem findings_localize (he : o.error = none) :
    (o.localize directory scope).findings = localFindings directory scope o.findings := by
  simp [localize, he, localFindings]

/-- What becomes of a finding does not depend on the others. -/
theorem findings_localize_split (he : o.error = none) (f : Finding) (before after : List Finding)
    (ho : o.findings = before ++ f :: after) :
    (o.localize directory scope).findings =
      ({ o with findings := before }.localize directory scope).findings ++
        (if scope.covers (directory.relativize f.file) then
          [{ f with file := directory.relativize f.file }] else []) ++
        ({ o with findings := after }.localize directory scope).findings := by
  have hkept (part : List Finding) :
      ({ o with findings := part }.localize directory scope).findings =
        localFindings directory scope part := findings_localize directory scope _ he
  rw [hkept o.findings, hkept before, hkept after, ho, localFindings_append, localFindings_cons]
  split <;> simp

theorem dropped_iff (he : o.error = none) (f : Finding) (before after : List Finding)
    (ho : o.findings = before ++ f :: after) :
    (o.localize directory scope).findings =
        ({ o with findings := before }.localize directory scope).findings ++
          ({ o with findings := after }.localize directory scope).findings ↔
      scope.covers (directory.relativize f.file) = false := by
  rw [findings_localize_split directory scope o he f before after ho]
  cases hc : scope.covers (directory.relativize f.file) with
  | false => simp
  | true =>
    simp only [if_true, Bool.true_eq_false, iff_false]
    intro h
    have hlen := congrArg List.length h
    simp only [List.length_append, List.length_singleton] at hlen
    omega

end Outcome
end CodeAudit
