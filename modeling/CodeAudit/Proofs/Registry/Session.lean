import CodeAudit.Analyzer.Mypy
import CodeAudit.Analyzer.Ruff
import CodeAudit.Proofs.Registry.Distinct
import CodeAudit.Registry.Session
namespace CodeAudit.Registry

/-- The analyzer that an operation offers for registration. -/
def Operation.offer : Operation → Option Analyzer
  | register a => some a
  | _ => none

/-- The analyzer that an operation has registered, by the answer to it. -/
def Operation.entered : Operation → Reply → Option Analyzer
  | register a, .done => some a
  | _, _ => none

section
variable (r : Registry)

theorem register_new {a : Analyzer} (h : a.name ∉ r.names) :
    r.register a = .ok ⟨r.analyzers ++ [a]⟩ := by
  simp [register, contains, h]

theorem register_taken {a : Analyzer} (h : a.name ∈ r.names) :
    r.register a = .error (.alreadyRegistered a.name) := by
  simp [register, contains, h]

theorem names_concat (a : Analyzer) :
    (Registry.mk (r.analyzers ++ [a])).names = r.names ++ [a.name] := List.map_append

/-- All that an operation can do to a registry: only an analyzer of a new name changes it. -/
theorem step_cases (o : Operation) :
    (∃ a, o = .register a ∧ a.name ∉ r.names ∧ r.step o = (⟨r.analyzers ++ [a]⟩, .done)) ∨
    (∃ a, o = .register a ∧ a.name ∈ r.names ∧
      r.step o = (r, .refused (.alreadyRegistered a.name))) ∨
    (o.offer = none ∧ (r.step o).1 = r) := by
  cases o with
  | register a =>
    by_cases h : a.name ∈ r.names
    · exact .inr (.inl ⟨a, rfl, h, by simp only [step, register_taken r h]⟩)
    · exact .inl ⟨a, rfl, h, by simp only [step, register_new r h]⟩
  | _ => exact .inr (.inr ⟨rfl, rfl⟩)

theorem get?_isSome_iff (name : String) : (r.get? name).isSome = true ↔ name ∈ r.names := by
  simp [get?, names, List.find?_isSome]

theorem contains_eq (name : String) : r.contains name = (r.get? name).isSome := by
  rw [Bool.eq_iff_iff, get?_isSome_iff, contains, List.contains_iff_mem]

/-- An analyzer of a taken name is never the first one of its name. -/
theorem find?_of_taken {a : Analyzer} (h : a.name ∈ r.names) (later : List Analyzer)
    (name : String) :
    (r.analyzers ++ a :: later).find? (·.name == name) =
      (r.analyzers ++ later).find? (·.name == name) := by
  rw [List.find?_append, List.find?_append]
  by_cases hname : a.name = name
  · obtain ⟨b, hb⟩ := Option.isSome_iff_exists.mp ((r.get?_isSome_iff name).mpr (hname ▸ h))
    have hfound : r.analyzers.find? (·.name == name) = some b := hb
    rw [hfound, Option.some_or, Option.some_or]
  · rw [List.find?_cons_of_neg (by simpa using hname)]

end

/-- The analyzers that some operations register, by the answers to them. -/
def entered (r : Registry) (operations : List Operation) : List Analyzer :=
  (operations.zip (r.session operations)).filterMap fun (o, _, reply) => o.entered reply

section
variable (r : Registry) (operations : List Operation)

theorem after_nodup (hr : r.names.Nodup) : (r.after operations).names.Nodup := by
  induction operations generalizing r with
  | nil => exact hr
  | cons o rest ih =>
    refine ih (r.step o).1 ?_
    obtain ⟨a, -, hnew, hstep⟩ | ⟨a, -, -, hstep⟩ | ⟨-, hstep⟩ := r.step_cases o
    · rw [hstep, names_concat]
      exact List.nodup_append.mpr ⟨hr, by simp, by grind⟩
    · rw [hstep]
      exact hr
    · rw [hstep]
      exact hr

/-- Operations add to a registry what they register, in their order, and change nothing else. -/
theorem after_analyzers :
    (r.after operations).analyzers = r.analyzers ++ r.entered operations := by
  induction operations generalizing r with
  | nil => exact (List.append_nil _).symm
  | cons o rest ih =>
    have hrest := ih (r.step o).1
    have hentered : r.entered (o :: rest) =
        (o.entered (r.step o).2).toList ++ (r.step o).1.entered rest := by
      cases he : o.entered (r.step o).2 <;> simp [entered, session, he]
    rw [hentered, ← List.append_assoc]
    refine hrest.trans (congrArg (· ++ _) ?_)
    obtain ⟨a, rfl, -, hstep⟩ | ⟨a, rfl, -, hstep⟩ | ⟨hoffer, hstep⟩ := r.step_cases o
    · rw [hstep]
      rfl
    · rw [hstep]
      exact (List.append_nil _).symm
    · have hnone : o.entered (r.step o).2 = none := by
        cases o with
        | register a => cases hoffer
        | _ => rfl
      rw [hstep, hnone]
      exact (List.append_nil _).symm

/-- A name leads to the first analyzer that was ever offered under it. -/
theorem get?_after (name : String) :
    (r.after operations).get? name =
      (r.analyzers ++ operations.filterMap Operation.offer).find? (·.name == name) := by
  induction operations generalizing r with
  | nil => rw [List.filterMap_nil, List.append_nil]; rfl
  | cons o rest ih =>
    refine (ih (r.step o).1).trans ?_
    obtain ⟨a, rfl, -, hstep⟩ | ⟨a, rfl, htaken, hstep⟩ | ⟨hoffer, hstep⟩ := r.step_cases o
    · rw [hstep, List.append_assoc]
      rfl
    · rw [hstep]
      exact (r.find?_of_taken htaken _ name).symm
    · rw [hstep, List.filterMap_cons_none hoffer]

end

section
variable {r : Registry} {as : List Analyzer}

theorem registerAll_of_nodup (h : (r.names ++ as.map (·.name)).Nodup) :
    r.registerAll as = .ok ⟨r.analyzers ++ as⟩ := by
  induction as generalizing r with
  | nil => rw [List.append_nil]; rfl
  | cons a rest ih =>
    have hnew : a.name ∉ r.names := fun hmem =>
      (List.nodup_append.mp h).2.2 _ hmem _ List.mem_cons_self rfl
    have hsplit : ((Registry.mk (r.analyzers ++ [a])).names ++ rest.map (·.name)).Nodup := by
      rw [names_concat, List.append_assoc]
      exact h
    rw [registerAll, register_new r hnew]
    refine (ih hsplit).trans ?_
    rw [List.append_assoc]
    rfl

theorem registerAll_of_not_nodup (hr : r.names.Nodup)
    (h : ¬ (r.names ++ as.map (·.name)).Nodup) :
    ∃ name, r.registerAll as = .error (.alreadyRegistered name) := by
  induction as generalizing r with
  | nil =>
    rw [List.map_nil, List.append_nil] at h
    exact absurd hr h
  | cons a rest ih =>
    by_cases htaken : a.name ∈ r.names
    · refine ⟨a.name, ?_⟩
      rw [registerAll, register_taken r htaken]
      rfl
    · rw [registerAll, register_new r htaken]
      apply ih
      · rw [names_concat]
        exact List.nodup_append.mpr ⟨hr, by simp, by grind⟩
      · rw [names_concat, List.append_assoc]
        exact h

end

/-- A registry that could be made at all is, whatever is asked of it, a map in the order of its
registrations to which entries are only ever added. -/
theorem session_ordered (as : List Analyzer) (operations : List Operation) :
    ((as.map (·.name)).Nodup ∧ ofList as = .ok ⟨as⟩ ∨
      ¬ (as.map (·.name)).Nodup ∧ ∃ name, ofList as = .error (.alreadyRegistered name)) ∧
    ∀ start, ofList as = .ok start →
      let r := start.after operations
      let first (name : String) :=
        (as ++ operations.filterMap Operation.offer).find? (·.name == name)
      r.names.Nodup ∧
      r.analyzers = as ++ start.entered operations ∧
      r.step .listing = (r, .analyzers r.analyzers) ∧
      r.step .iterate = (r, .names (r.analyzers.map (·.name))) ∧
      r.step .size = (r, .count r.names.length) ∧
      (∀ name,
        r.step (.contains name) = (r, .truth (first name).isSome) ∧
        r.step (.tryGet name) = (r, .maybe (first name)) ∧
        r.step (.get name) = (r, match first name with
          | some a => .analyzer a
          | none => .refused (.notRegistered name))) ∧
      (∀ a, a.name ∈ r.names → r.step (.register a) = (r, .refused (.alreadyRegistered a.name))) ∧
      (∀ a, a.name ∉ r.names → r.step (.register a) = (⟨r.analyzers ++ [a]⟩, .done)) ∧
      ∀ o, (∀ a, o ≠ .register a) → (r.step o).1 = r := by
  have hmade : (as.map (·.name)).Nodup ∧ ofList as = .ok ⟨as⟩ ∨
      ¬ (as.map (·.name)).Nodup ∧ ∃ name, ofList as = .error (.alreadyRegistered name) := by
    by_cases h : (as.map (·.name)).Nodup
    · exact .inl ⟨h, registerAll_of_nodup (r := {}) h⟩
    · exact .inr ⟨h, registerAll_of_not_nodup (r := {}) .nil h⟩
  refine ⟨hmade, ?_⟩
  intro start hstart r first
  obtain ⟨hnodup, hok⟩ | ⟨-, name, herror⟩ := hmade
  · obtain rfl : Registry.mk as = start := Except.ok.inj (hok.symm.trans hstart)
    have hfirst (name : String) : r.get? name = first name := get?_after ⟨as⟩ operations name
    refine ⟨after_nodup ⟨as⟩ operations hnodup, after_analyzers ⟨as⟩ operations, rfl, rfl, ?_,
      fun name => ⟨?_, ?_, ?_⟩, fun a ha => ?_, fun a ha => ?_, fun o ho => ?_⟩
    · rw [names, List.length_map]
      rfl
    · rw [← hfirst, ← contains_eq]
      rfl
    · rw [← hfirst]
      rfl
    · simp only [step, get, hfirst]
      cases first name <;> rfl
    · simp only [step, register_taken r ha]
    · simp only [step, register_new r ha]
    · obtain ⟨a, rfl, -⟩ | ⟨a, rfl, -⟩ | ⟨-, hstep⟩ := r.step_cases o
      · exact absurd rfl (ho a)
      · exact absurd rfl (ho a)
      · exact hstep
  · rw [herror] at hstart
    cases hstart

/-- A second analyzer of the name of the first is refused, and one of a new name comes after it. -/
theorem session_ordered_refusing :
    let twin : Analyzer := { Analyzer.mypy with name := "ruff" }
    let r := (Registry.mk [.ruff]).after [.register twin, .get "mypy", .register .mypy]
    ofList [.ruff] = .ok ⟨[.ruff]⟩ ∧ r.names = ["ruff", "mypy"] ∧ r.names.Nodup ∧
      r.step (.get "ruff") = (r, .analyzer .ruff) ∧ "ruff" ∈ r.names ∧
      r.step (.register twin) = (r, .refused (.alreadyRegistered "ruff")) := by
  intro twin r
  have hstart : ofList [.ruff] = .ok ⟨[.ruff]⟩ := rfl
  have hnames : r.names = ["ruff", "mypy"] := by decide
  have htaken : "ruff" ∈ r.names := by decide
  obtain ⟨-, hreached⟩ :=
    session_ordered [.ruff] [.register twin, .get "mypy", .register .mypy]
  obtain ⟨hnodup, -, -, -, -, hfirst, hrefused, -⟩ := hreached _ hstart
  exact ⟨hstart, hnames, hnodup, (hfirst "ruff").2.2, htaken, hrefused twin htaken⟩

end CodeAudit.Registry
