import CodeAudit.Proofs.Data.Fields
import CodeAudit.Proofs.Schema.Rule
import CodeAudit.Settings.Basic
namespace CodeAudit.Settings
open Schema

/-- The options, each by itself. -/
inductive Field
  | timeout
  | tools
  | exclude
  | only
  | fix
  | licenses
  | autoInstall
  | outputFormat
  | maxLines
  | lineCheckOmit
  | jobs
  | verbose
  deriving DecidableEq

namespace Field

def name : Field → String
  | timeout => "timeout"
  | tools => "tools"
  | exclude => "exclude"
  | only => "only"
  | fix => "fix"
  | licenses => "licenses"
  | autoInstall => "auto_install"
  | outputFormat => "output_format"
  | maxLines => "max_lines"
  | lineCheckOmit => "line_check_omit"
  | jobs => "jobs"
  | verbose => "verbose"

/-- What an option is set to. -/
abbrev Kind : Field → Type
  | timeout => Double
  | tools => List String
  | exclude => List String
  | only => List String
  | fix => Bool
  | licenses => Bool
  | autoInstall => Bool
  | outputFormat => ReportFormat
  | maxLines => Int
  | lineCheckOmit => List String
  | jobs => Int
  | verbose => Bool

/-- How a value of a document is read for an option. -/
def rule {μ : Type} : (k : Field) → Rule μ k.Kind
  | timeout => positive
  | tools => toolsRule
  | exclude => textsRule
  | only => textsRule
  | fix => truth
  | licenses => truth
  | autoInstall => truth
  | outputFormat => formatRule
  | maxLines => integerFrom 0
  | lineCheckOmit => textsRule
  | jobs => integerFrom 1
  | verbose => truth

end Field

def value (s : Settings) : (k : Field) → k.Kind
  | .timeout => s.timeout
  | .tools => s.tools
  | .exclude => s.exclude
  | .only => s.only
  | .fix => s.fix
  | .licenses => s.licenses
  | .autoInstall => s.autoInstall
  | .outputFormat => s.outputFormat
  | .maxLines => s.maxLines
  | .lineCheckOmit => s.lineCheckOmit
  | .jobs => s.jobs
  | .verbose => s.verbose

/-- The settings with one option set anew. -/
def withValue (s : Settings) : (k : Field) → k.Kind → Settings
  | .timeout, x => { s with timeout := x }
  | .tools, x => { s with tools := x }
  | .exclude, x => { s with exclude := x }
  | .only, x => { s with only := x }
  | .fix, x => { s with fix := x }
  | .licenses, x => { s with licenses := x }
  | .autoInstall, x => { s with autoInstall := x }
  | .outputFormat, x => { s with outputFormat := x }
  | .maxLines, x => { s with maxLines := x }
  | .lineCheckOmit, x => { s with lineCheckOmit := x }
  | .jobs, x => { s with jobs := x }
  | .verbose, x => { s with verbose := x }

theorem value_withValue (s : Settings) (k : Field) (x : k.Kind) : (s.withValue k x).value k = x := by
  cases k <;> rfl

theorem value_withValue_of_ne (s : Settings) {k other : Field} (x : k.Kind) (h : other ≠ k) :
    (s.withValue k x).value other = s.value other := by
  cases k <;> cases other <;> first | rfl | exact absurd rfl h

theorem mem_names_iff (name : String) : name ∈ names ↔ ∃ k : Field, k.name = name := by
  constructor
  · intro h
    simp only [names, List.mem_cons, List.not_mem_nil, or_false] at h
    rcases h with rfl | rfl | rfl | rfl | rfl | rfl | rfl | rfl | rfl | rfl | rfl | rfl
    · exact ⟨.timeout, rfl⟩
    · exact ⟨.tools, rfl⟩
    · exact ⟨.exclude, rfl⟩
    · exact ⟨.only, rfl⟩
    · exact ⟨.fix, rfl⟩
    · exact ⟨.licenses, rfl⟩
    · exact ⟨.autoInstall, rfl⟩
    · exact ⟨.outputFormat, rfl⟩
    · exact ⟨.maxLines, rfl⟩
    · exact ⟨.lineCheckOmit, rfl⟩
    · exact ⟨.jobs, rfl⟩
    · exact ⟨.verbose, rfl⟩
  · rintro ⟨k, rfl⟩
    cases k <;> simp [names, Field.name]

theorem name_injective {k other : Field} (h : k.name = other.name) : k = other := by
  cases k <;> cases other <;> first | rfl | exact absurd h (by decide)

section
variable {μ : Type}

/-- What a record gives for an option. -/
def read (fields : Fields μ) (k : Field) : Checked k.Kind :=
  defaulted k.name (({} : Settings).value k) k.rule fields

/-- An option is set to what its value is read as, and where it has none to its default. -/
def TakenFrom (s : Settings) (k : Field) : Option (Data μ) → Prop
  | some v => k.rule v = .ok (s.value k)
  | none => s.value k = ({} : Settings).value k

section
variable {s t : Settings} {k : Field} {o : Option (Data μ)}

/-- What holds of the default and of everything that is read for an option holds of the option. -/
theorem TakenFrom.elim {P : k.Kind → Prop} (h : s.TakenFrom k o)
    (hdefault : P (({} : Settings).value k)) (hread : ∀ (v : Data μ) x, k.rule v = .ok x → P x) :
    P (s.value k) := by
  cases o with
  | none =>
    rw [TakenFrom] at h
    rw [h]
    exact hdefault
  | some v => exact hread v _ h

theorem takenFrom_congr (h : t.value k = s.value k) : t.TakenFrom k o ↔ s.TakenFrom k o := by
  cases o <;> simp only [TakenFrom, h]

end

theorem read_eq_ok {fields : Fields μ} {s : Settings} {k : Field} :
    read fields k = .ok (s.value k) ↔ s.TakenFrom k (fields.find? k.name) := by
  unfold read defaulted
  cases fields.find? k.name with
  | none => simp [TakenFrom, eq_comm]
  | some v => exact under_eq_ok

theorem forbidUnexpected_eq_ok {fields : Fields μ} {x : Checked Settings} {s : Settings} :
    forbidUnexpected fields x = .ok s ↔ x = .ok s ∧ ∀ name ∈ fields.names, name ∈ names := by
  have hnone : unexpected fields = [] ↔ ∀ name ∈ fields.names, name ∈ names := by
    simp [unexpected, List.filter_eq_nil_iff]
  rw [← hnone]
  unfold forbidUnexpected
  cases x <;> cases unexpected fields <;> simp

/-- A record sets the options exactly if it has no other fields and each of its values can be read
for its option. -/
theorem ofFields_eq_ok {fields : Fields μ} {s : Settings} :
    ofFields fields = .ok s ↔
      (∀ k : Field, s.TakenFrom k (fields.find? k.name)) ∧ ∀ name ∈ fields.names, name ∈ names := by
  rw [ofFields, forbidUnexpected_eq_ok, and_congr_left_iff]
  intro _
  simp only [← read_eq_ok]
  constructor
  · intro h k
    obtain ⟨_, verbose, hs₁₁, hverbose, rfl⟩ := also_eq_ok.mp h
    obtain ⟨_, jobs, hs₁₀, hjobs, rfl⟩ := also_eq_ok.mp hs₁₁
    obtain ⟨_, lineCheckOmit, hs₉, hlineCheckOmit, rfl⟩ := also_eq_ok.mp hs₁₀
    obtain ⟨_, maxLines, hs₈, hmaxLines, rfl⟩ := also_eq_ok.mp hs₉
    obtain ⟨_, outputFormat, hs₇, houtputFormat, rfl⟩ := also_eq_ok.mp hs₈
    obtain ⟨_, autoInstall, hs₆, hautoInstall, rfl⟩ := also_eq_ok.mp hs₇
    obtain ⟨_, licenses, hs₅, hlicenses, rfl⟩ := also_eq_ok.mp hs₆
    obtain ⟨_, fix, hs₄, hfix, rfl⟩ := also_eq_ok.mp hs₅
    obtain ⟨_, only, hs₃, honly, rfl⟩ := also_eq_ok.mp hs₄
    obtain ⟨_, exclude, hs₂, hexclude, rfl⟩ := also_eq_ok.mp hs₃
    obtain ⟨_, tools, hs₁, htools, rfl⟩ := also_eq_ok.mp hs₂
    obtain ⟨_, timeout, hstart, htimeout, rfl⟩ := also_eq_ok.mp hs₁
    cases hstart
    cases k
    case timeout =>
      simp only [read, value]
      exact htimeout
    case tools => exact htools
    case exclude => exact hexclude
    case only => exact honly
    case fix => exact hfix
    case licenses => exact hlicenses
    case autoInstall => exact hautoInstall
    case outputFormat => exact houtputFormat
    case maxLines => exact hmaxLines
    case lineCheckOmit => exact hlineCheckOmit
    case jobs => exact hjobs
    case verbose => exact hverbose
  · intro h
    have htimeout := h .timeout
    simp only [read, value] at htimeout
    simp only [also_eq_ok]
    exact ⟨_, _, ⟨_, _, ⟨_, _, ⟨_, _, ⟨_, _, ⟨_, _, ⟨_, _, ⟨_, _, ⟨_, _, ⟨_, _, ⟨_, _, ⟨_, _,
      rfl, htimeout, rfl⟩, h .tools, rfl⟩, h .exclude, rfl⟩, h .only, rfl⟩, h .fix, rfl⟩,
      h .licenses, rfl⟩, h .autoInstall, rfl⟩, h .outputFormat, rfl⟩, h .maxLines, rfl⟩,
      h .lineCheckOmit, rfl⟩, h .jobs, rfl⟩, h .verbose, rfl⟩

theorem ofFields_unexpected {fields : Fields μ} {name : String} (h : name ∈ fields.names)
    (hname : name ∉ names) :
    ∃ issues, ofFields fields = .error issues ∧ ⟨[.field name], .unexpected⟩ ∈ issues := by
  have hmem : (⟨[.field name], .unexpected⟩ : Issue) ∈ unexpected fields :=
    List.mem_map.mpr ⟨name, List.mem_filter.mpr ⟨h, by simpa using hname⟩, rfl⟩
  rw [ofFields]
  generalize Checked.also _ _ = x
  unfold forbidUnexpected
  cases x with
  | error issues => exact ⟨_, rfl, List.mem_append_right _ hmem⟩
  | ok s =>
    cases hu : unexpected fields with
    | nil => rw [hu] at hmem; cases hmem
    | cons issue rest => exact ⟨_, rfl, hu ▸ hmem⟩

end

end CodeAudit.Settings
