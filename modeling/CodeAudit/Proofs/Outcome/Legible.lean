import CodeAudit.Outcome
import CodeAudit.Proofs.Json.Legible
import CodeAudit.Proofs.Schema.Rule
namespace CodeAudit
open Json

namespace Schema

theorem IntegerText.legible_plain {cs : List Char} {n : Int} (h : plain cs = .ok n) :
    Legible (.int n) := by
  unfold plain at h
  split at h
  next negative body hsplit =>
    have hbody : body.length ≤ cs.length := by
      split at hsplit
      · next rest =>
        rw [← (Prod.mk.inj hsplit).2, List.length_cons]
        exact Nat.le_succ _
      · rw [(Prod.mk.inj hsplit).2]
    have hlength : (body.takeWhile Text.isAsciiDigit).length +
        (body.dropWhile Text.isAsciiDigit).length = body.length := by
      rw [← List.length_append, List.takeWhile_append_dropWhile]
    dsimp only at h
    split at h
    · split at h
      · cases h
        exact legible_digit (by decide)
      · cases h
    · split at h
      · cases h
      · next hshort =>
        split at h
        · next m hrest hm =>
          cases h
          rw [hrest, List.length_nil] at hlength hshort
          exact legible_of_decimal? hm (by omega) negative
        · cases h

theorem IntegerText.legible_read {cs : List Char} {n : Int} (h : IntegerText.read cs = .ok n) :
    Legible (.int n) := by
  unfold IntegerText.read at h
  split at h
  · split at h
    · exact legible_plain h
    · cases h
  · exact legible_plain h

/-- An integer that a rule takes from a legible value is legible. -/
theorem legible_integer {v : Json} {n : Int} (hv : Legible v) (h : integer v = .ok n) :
    Legible (.int n) := by
  cases v with
  | int m =>
    cases h
    exact hv
  | bool b =>
    obtain rfl := Except.ok.inj h
    cases b with
    | true => exact legible_digit (by decide)
    | false => exact legible_digit (by decide)
  | float x =>
    rw [integer] at h
    split at h
    · split at h
      · split at h
        · next hwords =>
          cases h
          have hpower : Int.pow 2 63 = 9223372036854775808 := by decide
          rw [insideWords, hpower, Bool.and_eq_true, decide_eq_true_eq, decide_eq_true_eq] at hwords
          have hlt : n.natAbs < 10 ^ 19 := by omega
          rw [Legible]
          exact ((Nat.length_toDigits_le_iff (by decide) (by decide)).mpr hlt).trans (by decide)
        · cases h
      · cases h
    · cases h
  | text s =>
    rw [integer] at h
    split at h
    · next hread =>
      cases h
      exact IntegerText.legible_read hread
    · cases h
    · cases h
  | null => cases h
  | list items => cases h
  | record fields => cases h
  | other value => exact value.elim

end Schema
open Schema

/-- The line and the column of a finding have no more digits than are converted. -/
structure Finding.Legible (f : Finding) : Prop where
  line : Json.Legible (.int f.line)
  column : ∀ col ∈ f.col, Json.Legible (.int col)

section
variable {α : Type} {fields : Fields Empty} {name : String} {rule : Rule Empty α} {a : α}

/-- What a field is read as comes from a legible value or is there already. -/
theorem Schema.defaulted_cases (hv : Json.Legible (.record fields)) {fallback : α}
    (h : defaulted name fallback rule fields = .ok a) :
    a = fallback ∨ ∃ v, Json.Legible v ∧ rule v = .ok a := by
  rw [defaulted] at h
  cases hfind : fields.find? name with
  | none =>
    rw [hfind] at h
    exact .inl (Except.ok.inj h).symm
  | some v =>
    rw [hfind] at h
    exact .inr ⟨v, (legible_record.mp hv).2 _ (Fields.mem_of_find? hfind), under_eq_ok.mp h⟩

end

theorem Finding.legible_ofData {v : Json} {f : Finding} (hv : Json.Legible v)
    (h : ofData v = .ok f) : f.Legible := by
  have hzero : Json.Legible (.int 0) := legible_digit (by decide)
  cases v with
  | record fields =>
    obtain ⟨_, message, h₆, -, rfl⟩ := also_eq_ok.mp h
    obtain ⟨_, severity, h₅, -, rfl⟩ := also_eq_ok.mp h₆
    obtain ⟨_, rule, h₄, -, rfl⟩ := also_eq_ok.mp h₅
    obtain ⟨_, tag, h₃, -, rfl⟩ := also_eq_ok.mp h₄
    obtain ⟨_, col, h₂, hcol, rfl⟩ := also_eq_ok.mp h₃
    obtain ⟨_, line, h₁, hline, rfl⟩ := also_eq_ok.mp h₂
    obtain ⟨_, file, hstart, -, rfl⟩ := also_eq_ok.mp h₁
    cases hstart
    constructor
    · rcases defaulted_cases hv hline with rfl | ⟨w, hw, hrule⟩
      · exact hzero
      · rw [lineRule.eq_def] at hrule
        split at hrule
        · cases hrule
          exact hzero
        · exact legible_integer hw hrule
    · intro n hn
      rcases defaulted_cases hv hcol with rfl | ⟨w, hw, hrule⟩
      · cases hn
      · rw [nullable.eq_def] at hrule
        split at hrule
        · cases hrule
          cases hn
        · obtain ⟨m, hm, rfl⟩ := map_eq_ok.mp hrule
          cases hn
          exact legible_integer hw hm
  | other value => exact value.elim
  | _ => cases h

theorem Schema.itemsFrom_legible {items : List Json} {index : Nat} {fs : List Finding}
    (hv : ∀ v ∈ items, Json.Legible v) (h : itemsFrom Finding.ofData index items = .ok fs) :
    ∀ f ∈ fs, f.Legible := by
  induction items generalizing index fs with
  | nil =>
    cases h
    simp
  | cons v rest ih =>
    obtain ⟨hfirst, hrest⟩ := List.forall_mem_cons.mp hv
    obtain ⟨_, more, hone, hmore, rfl⟩ := also_eq_ok.mp h
    obtain ⟨f, hf, rfl⟩ := map_eq_ok.mp hone
    exact List.forall_mem_cons.mpr
      ⟨Finding.legible_ofData hfirst (under_eq_ok.mp hf), ih hrest hmore⟩

/-- The findings of an outcome that is accepted from a document have legible numbers. -/
theorem Outcome.legible_ofData {v : Json} {o : Outcome} (hv : Json.Legible v)
    (h : ofData v = .ok o) : ∀ f ∈ o.findings, f.Legible := by
  cases v with
  | record fields =>
    obtain ⟨raw, hraw, hcheck⟩ := bind_eq_ok.mp h
    obtain rfl : raw = o := by
      rw [check] at hcheck
      split at hcheck
      · exact Except.ok.inj hcheck
      · cases hcheck
    obtain ⟨_, fixSkipped, h₄, -, rfl⟩ := also_eq_ok.mp hraw
    obtain ⟨_, duration, h₃, -, rfl⟩ := also_eq_ok.mp h₄
    obtain ⟨_, error, h₂, -, rfl⟩ := also_eq_ok.mp h₃
    obtain ⟨_, findings, h₁, hfindings, rfl⟩ := also_eq_ok.mp h₂
    obtain ⟨_, tool, hstart, -, rfl⟩ := also_eq_ok.mp h₁
    cases hstart
    rcases defaulted_cases hv hfindings with rfl | ⟨w, hw, hrule⟩
    · exact List.forall_mem_nil _
    · cases w with
      | list items => exact itemsFrom_legible (legible_list.mp hw) hrule
      | other value => exact value.elim
      | _ => cases hrule
  | other value => exact value.elim
  | _ => cases h

end CodeAudit
