import CodeAudit.Analyzer.Catalog
namespace CodeAudit

namespace Request
variable (r : Request) (asked : Bool)

@[simp] theorem subjects_fix : ({ r with fix := asked } : Request).subjects = r.subjects := rfl

@[simp] theorem configArgs_fix (option : String) :
    ({ r with fix := asked } : Request).configArgs option = r.configArgs option := rfl

end Request

namespace Analyzer
variable {a : Analyzer}

/-- An analyzer always has commands, and what it says of its fixes is true of them: a request for
fixes changes the words of its own command exactly if it supports fixes. -/
structure Truthful (a : Analyzer) : Prop where
  tidies : ∀ r, ∃ commands, a.preFix r = .ok commands
  builds : ∀ r, (a.usesScratch = true → r.scratch.isSome = true) →
    ∃ command, a.build r = .ok command
  plain : a.supportsFix = false →
    ∀ r : Request, a.build { r with fix := true } = a.build { r with fix := false }
  fixing : a.supportsFix = true → ∀ (r : Request) fixing plain,
    a.build { r with fix := true } = .ok fixing →
    a.build { r with fix := false } = .ok plain → fixing.argv ≠ plain.argv

theorem argv_ne_of_args {c d : Command} (hne : c.args ≠ d.args) : c.argv ≠ d.argv :=
  fun he => hne (List.cons.inj he).2

theorem argv_ne_of_longer {c d : Command} (hlt : d.args.length < c.args.length) :
    c.argv ≠ d.argv := by
  apply argv_ne_of_args
  intro he
  rw [he] at hlt
  exact Nat.lt_irrefl _ hlt

theorem truthful_of_plain {command : Request → Command} (hb : a.build = fun r => .ok (command r))
    (ht : ∀ r, ∃ commands, a.preFix r = .ok commands) (hs : a.supportsFix = false)
    (hsame : ∀ r : Request, command { r with fix := true } = command { r with fix := false }) :
    a.Truthful where
  tidies := ht
  builds r _ := ⟨command r, by rw [hb]⟩
  plain _ r := by rw [hb]; exact congrArg Except.ok (hsame r)
  fixing hfix := by simp [hs] at hfix

theorem truthful_of_fixing {command : Request → Command} (hb : a.build = fun r => .ok (command r))
    (ht : ∀ r, ∃ commands, a.preFix r = .ok commands) (hs : a.supportsFix = true)
    (hne : ∀ r : Request,
      (command { r with fix := true }).argv ≠ (command { r with fix := false }).argv) :
    a.Truthful where
  tidies := ht
  builds r _ := ⟨command r, by rw [hb]⟩
  plain hplain := by simp [hs] at hplain
  fixing _ r fixing plain hf hp := by
    rw [hb] at hf hp
    cases hf
    cases hp
    exact hne r

/-- A wish for fixes is withheld exactly if it would have changed the words of the command. -/
theorem Truthful.withheld (ha : a.Truthful) {r : Request} {wanted allowed : Bool}
    {command requested : Command}
    (hc : a.build { r with fix := wanted && allowed } = .ok command)
    (hr : a.build { r with fix := wanted } = .ok requested) :
    command.argv ≠ requested.argv ↔ (wanted && a.supportsFix && !allowed) = true := by
  by_cases hsame : (wanted && allowed) = wanted
  · have hequal : command = requested := by
      rw [hsame, hr] at hc
      exact (Except.ok.inj hc).symm
    revert hsame
    cases wanted <;> cases allowed <;> simp [hequal]
  · obtain ⟨rfl, rfl⟩ : wanted = true ∧ allowed = false := by
      revert hsame
      cases wanted <;> cases allowed <;> simp
    cases hs : a.supportsFix with
    | true => simpa using (ha.fixing hs r requested command hr hc).symm
    | false =>
      have hequal := ha.plain hs r
      rw [hr] at hequal
      have hsame : requested = command := Except.ok.inj (hequal.trans hc)
      simp [hsame]

section
variable (r : Request)

theorem Ruff.argv_fix : (Ruff.build { r with fix := true }).argv ≠
    (Ruff.build { r with fix := false }).argv := by
  apply argv_ne_of_args
  simp [Ruff.build, Ruff.configure]

theorem Eslint.argv_fix : (Eslint.build { r with fix := true }).argv ≠
    (Eslint.build { r with fix := false }).argv := by
  apply argv_ne_of_longer
  simp [Eslint.build]

theorem Stylelint.argv_fix : (Stylelint.build { r with fix := true }).argv ≠
    (Stylelint.build { r with fix := false }).argv := by
  apply argv_ne_of_longer
  simp [Stylelint.build]

theorem GolangciLint.argv_fix : (GolangciLint.build { r with fix := true }).argv ≠
    (GolangciLint.build { r with fix := false }).argv := by
  apply argv_ne_of_longer
  simp [GolangciLint.build]

theorem Clippy.argv_fix : (Clippy.build { r with fix := true }).argv ≠
    (Clippy.build { r with fix := false }).argv := by
  apply argv_ne_of_longer
  simp [Clippy.build]

theorem Sqlfluff.argv_fix : (Sqlfluff.build { r with fix := true }).argv ≠
    (Sqlfluff.build { r with fix := false }).argv := by
  apply argv_ne_of_args
  simp [Sqlfluff.build]

end

/-- The report goes to a scratch directory, whether fixes are asked for or not. -/
theorem jscpd_truthful : jscpd.Truthful where
  tidies _ := ⟨[], rfl⟩
  builds r hr := by
    obtain ⟨scratch, hscratch⟩ := Option.isSome_iff_exists.mp (hr rfl)
    change ∃ command, Jscpd.build r = .ok command
    rw [Jscpd.build, hscratch]
    exact ⟨_, rfl⟩
  plain _ _ := rfl
  fixing hfix := nomatch hfix

/-- Every analyzer that is known from the start is true to its word. -/
theorem builtin_truthful : ∀ a ∈ Registry.builtin.analyzers, a.Truthful := by
  have hnone (r : Request) : ∃ commands : List Command, Except.ok (ε := Fault) [] = .ok commands :=
    ⟨[], rfl⟩
  simp only [Registry.builtin, List.forall_mem_cons]
  refine ⟨?ruff, ?mypy, ?vulture, ?eslint, ?tsc, ?stylelint, ?semgrep, ?bearer, ?golangciLint,
    ?clippy, ?sqlfluff, ?trivy, jscpd_truthful, ?knip, ?typos, ?none⟩
  case ruff => exact truthful_of_fixing rfl (fun _ => ⟨_, rfl⟩) rfl Ruff.argv_fix
  case eslint => exact truthful_of_fixing rfl hnone rfl Eslint.argv_fix
  case stylelint => exact truthful_of_fixing rfl hnone rfl Stylelint.argv_fix
  case golangciLint => exact truthful_of_fixing rfl hnone rfl GolangciLint.argv_fix
  case clippy => exact truthful_of_fixing rfl hnone rfl Clippy.argv_fix
  case sqlfluff => exact truthful_of_fixing rfl hnone rfl Sqlfluff.argv_fix
  case none => simp
  all_goals exact truthful_of_plain rfl hnone rfl fun _ => rfl

/-- What needs a directory for its report changes no code. -/
theorem builtin_scratch :
    ∀ a ∈ Registry.builtin.analyzers, a.usesScratch = true → a.supportsFix = false := by decide

end Analyzer
end CodeAudit
