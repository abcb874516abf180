import CodeAudit.Analyzer.Catalog
import Mathlib.Tactic.Tauto
namespace CodeAudit

/-- A command with more words at its end. -/
def Command.ending (c : Command) (words : List String) : Command :=
  { c with args := c.args ++ words }

/-- A command that ends with the files of a request in order, or with one word in their place if
there are none, and is otherwise the same whatever the files are. -/
def EndsInFiles (command : Request → Command) : Prop :=
  ∀ r : Request, ∃ (front : Command) (whole : String),
    command { r with files := [] } = front.ending [whole] ∧
    ∀ files, files ≠ [] → command { r with files } = front.ending (files.map Path.text)

namespace Analyzer
variable {a : Analyzer}

/-- All commands of an analyzer end in the files of a request. -/
structure NamesFiles (a : Analyzer) : Prop where
  build : ∃ command, a.build = (fun r => .ok (command r)) ∧ EndsInFiles command
  preFix : ∃ commands : List (Request → Command), a.preFix = (fun r => .ok (commands.map (· r))) ∧
    ∀ command ∈ commands, EndsInFiles command

/-- All commands of an analyzer are the same whatever the files of a request are. -/
structure IgnoresFiles (a : Analyzer) : Prop where
  build : ∀ (r : Request) files, a.build { r with files } = a.build r
  preFix : ∀ (r : Request) files, a.preFix { r with files } = a.preFix r

theorem endsInFiles_of_words {command : Request → Command} {executable : String}
    {words : Request → List String} {whole : Request → String} {directory : Request → Option Path}
    (hcommand : ∀ r, command r = ⟨executable, words r ++
      (if r.files.isEmpty then [whole r] else r.files.map Path.text), directory r⟩)
    (hsame : ∀ (r : Request) files,
      (words { r with files }, directory { r with files }) = (words r, directory r)) :
    EndsInFiles command := by
  intro r
  refine ⟨⟨executable, words r, directory r⟩, whole { r with files := [] }, ?_, fun files h => ?_⟩
  · obtain ⟨hwords, hdirectory⟩ := Prod.mk.inj (hsame r [])
    rw [hcommand, hwords, hdirectory]
    rfl
  · obtain ⟨hwords, hdirectory⟩ := Prod.mk.inj (hsame r files)
    rw [hcommand, hwords, hdirectory, if_neg (by simpa using h)]
    rfl

theorem namesFiles_of_command {command : Request → Command} (hcommand : EndsInFiles command)
    (hb : a.build = fun r => .ok (command r)) (hpre : a.preFix = fun _ => .ok []) :
    a.NamesFiles :=
  ⟨⟨command, hb, hcommand⟩, [], hpre, by simp⟩

theorem Ruff.endsInFiles (words : Request → List String)
    (hwords : ∀ (r : Request) files, words { r with files } = words r) :
    EndsInFiles fun r => configure r (words r) :=
  endsInFiles_of_words (fun _ => rfl) fun r files => by simp only [hwords]; rfl

theorem Mypy.endsInFiles : EndsInFiles build := endsInFiles_of_words (fun _ => rfl) fun _ _ => rfl

theorem Vulture.endsInFiles : EndsInFiles build :=
  endsInFiles_of_words (fun _ => rfl) fun _ _ => rfl

theorem Eslint.endsInFiles : EndsInFiles build :=
  endsInFiles_of_words (fun _ => rfl) fun _ _ => rfl

theorem Stylelint.endsInFiles : EndsInFiles build :=
  endsInFiles_of_words (fun _ => rfl) fun _ _ => rfl

theorem Semgrep.endsInFiles : EndsInFiles build :=
  endsInFiles_of_words (fun _ => rfl) fun _ _ => rfl

theorem GolangciLint.endsInFiles : EndsInFiles build :=
  endsInFiles_of_words (fun _ => rfl) fun _ _ => rfl

theorem Sqlfluff.endsInFiles : EndsInFiles build :=
  endsInFiles_of_words (fun _ => rfl) fun _ _ => rfl

theorem Typos.endsInFiles : EndsInFiles build :=
  endsInFiles_of_words (fun _ => rfl) fun _ _ => rfl

/-- The built-in analyzers that look at the files they are given. -/
def filesNamed : List Analyzer :=
  [.ruff, .mypy, .vulture, .eslint, .stylelint, .semgrep, .golangciLint, .sqlfluff, .typos]

/-- The built-in analyzers that always look at the whole target. -/
def filesIgnored : List Analyzer := [.tsc, .bearer, .clippy, .trivy, .jscpd, .knip]

theorem mem_builtin_iff (a : Analyzer) :
    a ∈ Registry.builtin.analyzers ↔ a ∈ filesNamed ∨ a ∈ filesIgnored := by
  simp only [Registry.builtin, filesNamed, filesIgnored, List.mem_cons, List.not_mem_nil]
  tauto

theorem filesNamed_namesFiles : ∀ a ∈ filesNamed, a.NamesFiles := by
  simp only [filesNamed, List.forall_mem_cons]
  refine ⟨?ruff, namesFiles_of_command Mypy.endsInFiles rfl rfl,
    namesFiles_of_command Vulture.endsInFiles rfl rfl,
    namesFiles_of_command Eslint.endsInFiles rfl rfl,
    namesFiles_of_command Stylelint.endsInFiles rfl rfl,
    namesFiles_of_command Semgrep.endsInFiles rfl rfl,
    namesFiles_of_command GolangciLint.endsInFiles rfl rfl,
    namesFiles_of_command Sqlfluff.endsInFiles rfl rfl,
    namesFiles_of_command Typos.endsInFiles rfl rfl, nofun⟩
  exact ⟨⟨Ruff.build, rfl, Ruff.endsInFiles _ fun _ _ => rfl⟩,
    [fun r => Ruff.configure r ["format"]], rfl,
    List.forall_mem_singleton.mpr (Ruff.endsInFiles _ fun _ _ => rfl)⟩

theorem filesIgnored_ignoresFiles : ∀ a ∈ filesIgnored, a.IgnoresFiles := by
  simp only [filesIgnored, List.forall_mem_cons]
  exact ⟨⟨fun _ _ => rfl, fun _ _ => rfl⟩, ⟨fun _ _ => rfl, fun _ _ => rfl⟩,
    ⟨fun _ _ => rfl, fun _ _ => rfl⟩, ⟨fun _ _ => rfl, fun _ _ => rfl⟩,
    ⟨fun _ _ => rfl, fun _ _ => rfl⟩, ⟨fun _ _ => rfl, fun _ _ => rfl⟩, nofun⟩

/-- A command that an analyzer may start for a request: one that tidies up, or its own. -/
def Uses (a : Analyzer) (r : Request) (c : Command) : Prop :=
  (∃ commands, a.preFix r = .ok commands ∧ c ∈ commands) ∨ a.build r = .ok c

theorem NamesFiles.uses {r : Request} {c : Command} (ha : a.NamesFiles) (hr : r.files ≠ [])
    (hc : a.Uses r c) : ∃ front : Command, c = front.ending (r.files.map Path.text) := by
  have hends {command : Request → Command} (hcommand : EndsInFiles command) :
      ∃ front : Command, command r = front.ending (r.files.map Path.text) := by
    obtain ⟨front, _, -, hfront⟩ := hcommand r
    exact ⟨front, hfront r.files hr⟩
  rcases hc with ⟨commands, hpre, hmem⟩ | hbuild
  · obtain ⟨all, hall, hnamed⟩ := ha.preFix
    rw [hall] at hpre
    cases hpre
    obtain ⟨command, hcommand, rfl⟩ := List.mem_map.mp hmem
    exact hends (hnamed command hcommand)
  · obtain ⟨command, hcommand, hnamed⟩ := ha.build
    rw [hcommand] at hbuild
    cases hbuild
    exact hends hnamed

end Analyzer
end CodeAudit
