import CodeAudit.Proofs.Settings.Options
import CodeAudit.Proofs.Text.Blank
import CodeAudit.Proofs.Text.Case
import CodeAudit.Settings.Assignment
namespace CodeAudit.Settings
open Schema

variable {μ : Type}

/-- The names that a value supplies: the pieces of a text between its commas, or the texts of a
list. -/
def suppliedNames : Data μ → List String
  | .text s => (Text.splitAt ',' s.toList).map String.ofList
  | .list items => textItems items
  | _ => []

theorem toolNames_stripped (pieces : List String) :
    toolNames ((pieces.map Text.strip).filter (· ≠ "")) = toolNames pieces := by
  have hkept (p : String) :
      (!Text.blank (Text.strip p) && decide (Text.strip p ≠ "")) = !Text.blank p := by
    rw [Text.blank_strip]
    cases hb : Text.blank p with
    | true => rfl
    | false => simp [Text.strip_ne_empty hb]
  rw [toolNames, toolNames, List.filter_filter, List.filter_map, List.map_map]
  simp only [Function.comp_def, hkept, Text.strip_strip]

theorem entries_eq (s : String) :
    entries s = ((suppliedNames (.text s : Data μ)).map Text.strip).filter (· ≠ "") := by
  simp only [entries, suppliedNames, List.map_map]
  congr 2
  funext piece
  simp [Text.strip]

theorem toolsRule_supplied {v : Data μ} {ts : List String} (h : toolsRule v = .ok ts) :
    ts = toolNames (suppliedNames v) := by
  obtain ⟨texts, htexts, rfl⟩ := map_eq_ok.mp h
  cases v with
  | text s =>
    cases htexts
    rw [entries_eq (μ := μ), toolNames_stripped]
  | list items => rw [itemsFrom_text htexts]; rfl
  | _ => cases htexts

theorem blank_of_mem_toolNames {names : List String} {n : String} (h : n ∈ toolNames names) :
    Text.blank n = false := by
  obtain ⟨m, hm, rfl⟩ := List.mem_map.mp h
  have hblank : Text.blank m = false := by simpa using (List.mem_filter.mp hm).2
  exact Text.blank_lower (by rw [Text.blank_strip, hblank])

/-- Setting a name replaces what settings go by: all their values, the values that no option has, or
the names that were given. -/
inductive Replaces : String → Data μ → Prop
  | values (fields : Fields μ) : Replaces valuesName (.record fields)
  | extra (field : String × Data μ) (rest : Fields μ) :
    Replaces extraName (.record (field :: rest))
  | given (v : Data μ) : Replaces givenName v

section
variable (s : Settings) (v : Data μ)

theorem assign_name (k : Field) :
    s.assign k.name v = ((k.rule v).under (.field k.name)).map (s.withValue k) := by
  cases k <;> rfl

theorem assign_other {name : String} (h : name ∉ names) :
    s.assign name v = .error [⟨[.field name], .noSuchField name⟩] := by
  unfold assign
  split <;> first | rfl | exact absurd (by decide) h

theorem setName_field (k : Field) :
    s.setName k.name v = ((s.assign k.name v).map some).mapError .invalid := by
  have hplain : readOnlyNames.contains k.name = false ∧ k.name ≠ kindName ∧ k.name ≠ valuesName ∧
      k.name ≠ extraName ∧ k.name ≠ givenName ∧ isNote k.name = false := by
    cases k <;> decide
  obtain ⟨hread, hkind, hvalues, hextra, hgiven, hnote⟩ := hplain
  unfold setName
  rw [hread, hnote, if_neg Bool.false_ne_true, if_neg hkind, if_neg hvalues, if_neg hextra,
    if_neg hgiven, if_neg Bool.false_ne_true]
  cases s.assign k.name v <;> rfl

/-- All that setting a name can do. -/
theorem setName_cases (name : String) :
    (∃ f, s.setName name v = .error f) ∨
    (Replaces name v ∧ s.setName name v = .ok none) ∨
    ((∀ k : Field, k.name ≠ name) ∧ s.setName name v = .ok (some s)) ∨
    ∃ (k : Field) (x : k.Kind), k.name = name ∧ k.rule v = .ok x ∧
      s.setName name v = .ok (some (s.withValue k x)) := by
  by_cases hfield : ∃ k : Field, k.name = name
  · obtain ⟨k, rfl⟩ := hfield
    rw [setName_field, assign_name]
    cases hv : k.rule v with
    | ok x => exact .inr (.inr (.inr ⟨k, x, rfl, hv, rfl⟩))
    | error issues => exact .inl ⟨_, rfl⟩
  · have hnone : name ∉ names := fun hmem => hfield ((mem_names_iff name).mp hmem)
    unfold setName
    rw [assign_other s v hnone]
    split
    · exact .inl ⟨_, rfl⟩
    split
    · exact .inl ⟨_, rfl⟩
    split
    · next hvalues =>
      cases v with
      | record fields => exact .inr (.inl ⟨hvalues ▸ .values fields, rfl⟩)
      | _ => exact .inl ⟨_, rfl⟩
    have hkept : ∀ k : Field, k.name ≠ name := fun k hk => hfield ⟨k, hk⟩
    split
    · next hextra =>
      split
      · next field rest => exact .inr (.inl ⟨hextra ▸ .extra field rest, rfl⟩)
      · exact .inr (.inr (.inl ⟨hkept, rfl⟩))
    split
    · next hgiven => exact .inr (.inl ⟨hgiven ▸ .given v, rfl⟩)
    split
    · exact .inr (.inr (.inl ⟨hkept, rfl⟩))
    · exact .inl ⟨_, rfl⟩

theorem setName_eq_none (name : String) :
    s.setName name v = .ok none ↔ Replaces name v := by
  constructor
  · intro hset
    obtain ⟨f, h⟩ | ⟨hreplaces, -⟩ | ⟨-, h⟩ | ⟨_, _, -, -, h⟩ := setName_cases s v name
    · rw [h] at hset
      cases hset
    · exact hreplaces
    · rw [h] at hset
      cases hset
    · rw [h] at hset
      cases hset
  · intro hreplaces
    cases hreplaces <;> rfl

end

/-- What holds of settings whatever they were given. -/
structure Sound (s : Settings) : Prop where
  jobs : 1 ≤ s.jobs
  maxLines : 0 ≤ s.maxLines
  timeout : s.timeout.le Double.zero = false
  outputFormat : s.outputFormat.text = "markdown" ∨ s.outputFormat.text = "sarif"
  tools : ∀ n ∈ s.tools, Text.blank n = false

section
variable {s t : Settings} {given : Fields μ} {name : String} {v : Data μ}

theorem tools_takenFrom {o : Option (Data μ)} (h : s.TakenFrom .tools o) :
    s.tools = toolNames ((o.map suppliedNames).getD []) := by
  cases o with
  | none => exact h
  | some v => exact toolsRule_supplied h

theorem sound_of_takenFrom {taken : Field → Option (Data μ)}
    (h : ∀ k, s.TakenFrom k (taken k)) : s.Sound where
  jobs := TakenFrom.elim (k := .jobs) (P := fun n : Int => 1 ≤ n) (h .jobs) (by decide)
    fun _ _ hread => integerFrom_atLeast hread
  maxLines := TakenFrom.elim (k := .maxLines) (P := fun n : Int => 0 ≤ n) (h .maxLines) (by decide)
    fun _ _ hread => integerFrom_atLeast hread
  timeout := by
    have hpositive := TakenFrom.elim (k := .timeout) (P := fun x : Double => Double.zero.lt x = true)
      (h .timeout) (by decide +kernel) fun _ _ hread => positive_above hread
    rw [Double.lt, Bool.and_eq_true, Bool.not_eq_true'] at hpositive
    exact hpositive.2
  outputFormat := by
    cases s.outputFormat with
    | markdown => exact .inl rfl
    | sarif => exact .inr rfl
  tools := by
    rw [tools_takenFrom (h .tools)]
    intro n
    exact blank_of_mem_toolNames

/-- An accepted value is what the option of its name is read from, and the others stay as they
are. -/
theorem value_of_setName (h : s.setName name v = .ok (some t)) (k : Field) :
    (k.name = name → k.rule v = .ok (t.value k)) ∧ (k.name ≠ name → t.value k = s.value k) := by
  obtain ⟨f, hset⟩ | ⟨-, hset⟩ | ⟨hnone, hset⟩ | ⟨set, x, rfl, hx, hset⟩ := setName_cases s v name
  · rw [hset] at h
    cases h
  · rw [hset] at h
    cases h
  · rw [hset] at h
    cases h
    exact ⟨fun hk => absurd hk (hnone k), fun _ => rfl⟩
  · rw [hset] at h
    cases h
    constructor
    · intro hk
      obtain rfl := name_injective hk
      rw [value_withValue, hx]
    · intro hk
      exact value_withValue_of_ne s x fun he => hk (congrArg Field.name he)

theorem takenFrom_setName (hs : ∀ k : Field, s.TakenFrom k (given.find? k.name))
    (h : s.setName name v = .ok (some t)) :
    ∀ k : Field, t.TakenFrom k ((Fields.put name v given).find? k.name) := by
  intro k
  have hput : (Fields.put name v given).find? k.name =
      if k.name = name then some v else given.find? k.name := Fields.lookup_put ..
  obtain ⟨hset, hkept⟩ := value_of_setName h k
  rw [hput]
  split
  · next hk => exact hset hk
  · next hk => exact (takenFrom_congr (hkept hk)).mpr (hs k)

end

/-- The settings that some steps come to. -/
def last (s : Settings) : List (Settings × Option Fault) → Settings
  | [] => s
  | (t, _) :: rest => last t rest

/-- The steps that were accepted, by what came of each. -/
def accepted (steps : List (String × Data μ)) (states : List (Settings × Option Fault)) :
    Fields μ :=
  ((steps.zip states).filter fun (_, _, f) => f.isNone).map (·.1)

/-- The last value that was accepted for a name, by a step or before all of them. -/
def lastAccepted (given : Fields μ) (steps : List (String × Data μ))
    (states : List (Settings × Option Fault)) (name : String) : Option (Data μ) :=
  (Fields.find? name (accepted steps states).reverse).or (given.find? name)

section
variable {s : Settings} {steps : List (String × Data μ)} {states : List (Settings × Option Fault)}

/-- A step that does not replace what settings go by either is accepted or changes nothing, and the
steps after it go on from what it comes to. -/
theorem setNames_cons {name : String} {v : Data μ} (h : s.setName name v ≠ .ok none) :
    ∃ (t : Settings) (f : Option Fault),
      (f = none ∧ s.setName name v = .ok (some t) ∨ f.isSome = true ∧ t = s) ∧
      ∀ rest, s.setNames ((name, v) :: rest) = (t.setNames rest).map ((t, f) :: ·) := by
  cases hset : s.setName name v with
  | error f => exact ⟨s, some f, .inr ⟨rfl, rfl⟩, fun rest => by rw [setNames, hset]⟩
  | ok o =>
    cases o with
    | none => exact absurd hset h
    | some t => exact ⟨t, none, .inl ⟨rfl, rfl⟩, fun rest => by rw [setNames, hset]⟩

theorem setName_ne_none {step : String × Data μ} (h : s.setNames (step :: steps) = .ok states) :
    s.setName step.1 step.2 ≠ .ok none := by
  intro hset
  rw [setNames, hset] at h
  cases h

theorem takenFrom_setNames {given : Fields μ}
    (hs : ∀ k : Field, s.TakenFrom k (given.find? k.name)) (h : s.setNames steps = .ok states) :
    ∀ k : Field, (s.last states).TakenFrom k (lastAccepted given steps states k.name) := by
  suffices hput : ∀ k : Field,
      (s.last states).TakenFrom k ((given.putAll (accepted steps states)).find? k.name) by
    intro k
    rw [lastAccepted, ← Fields.find?_putAll]
    exact hput k
  induction steps generalizing s given states with
  | nil =>
    cases h
    exact hs
  | cons step rest ih =>
    obtain ⟨t, f, hstep, hrest⟩ := setNames_cons (setName_ne_none h)
    obtain ⟨later, hlater, rfl⟩ := map_eq_ok.mp ((hrest rest).symm.trans h)
    obtain ⟨rfl, hset⟩ | ⟨hf, rfl⟩ := hstep
    · exact ih (takenFrom_setName hs hset) hlater
    · obtain ⟨e, rfl⟩ := Option.isSome_iff_exists.mp hf
      exact ih hs hlater

/-- Steps are taken one at a time. -/
theorem setNames_concat (h : s.setNames steps = .ok states) (name : String) (v : Data μ) :
    s.setNames (steps ++ [(name, v)]) = match (s.last states).setName name v with
      | .ok (some t) => .ok (states ++ [(t, none)])
      | .ok none => .error .noOptions
      | .error f => .ok (states ++ [(s.last states, some f)]) := by
  induction steps generalizing s states with
  | nil =>
    cases h
    rw [List.nil_append, setNames, last]
    cases s.setName name v with
    | error f => rfl
    | ok t => cases t <;> rfl
  | cons step rest ih =>
    obtain ⟨t, f, -, hrest⟩ := setNames_cons (setName_ne_none h)
    obtain ⟨later, hlater, rfl⟩ := map_eq_ok.mp ((hrest rest).symm.trans h)
    refine (hrest (rest ++ [(name, v)])).trans ?_
    rw [ih hlater, last]
    cases (t.last later).setName name v with
    | error e => rfl
    | ok o => cases o <;> rfl

/-- Only a step that replaces what settings go by keeps their states from being told. -/
theorem exists_setNames (s : Settings) (steps : List (String × Data μ)) :
    (∃ states, s.setNames steps = .ok states) ↔ ∀ step ∈ steps, ¬ Replaces step.1 step.2 := by
  induction steps generalizing s with
  | nil => simp [setNames]
  | cons step rest ih =>
    obtain ⟨name, v⟩ := step
    rw [List.forall_mem_cons, ← setName_eq_none s v name]
    by_cases hset : s.setName name v = .ok none
    · constructor
      · rintro ⟨states, h⟩
        rw [setNames, hset] at h
        cases h
      · intro h
        exact absurd hset h.1
    · obtain ⟨t, f, -, hrest⟩ := setNames_cons hset
      simp only [hset, not_false_eq_true, true_and, hrest, map_eq_ok, ← ih t]
      constructor
      · rintro ⟨_, later, hlater, -⟩
        exact ⟨later, hlater⟩
      · rintro ⟨later, hlater⟩
        exact ⟨_, later, hlater, rfl⟩

end

theorem takenFrom_ofData {record : Data μ} {s : Settings} (h : ofData record = .ok s) :
    ∀ k : Field, s.TakenFrom k (record.fields.find? k.name) := by
  cases record with
  | record fields => exact (ofFields_eq_ok.mp h).1
  | _ => cases h

/-- Settings stay sound whatever is set in them, and each option is what the last value accepted
for it is read as. A value that is refused changes nothing, and an accepted one only the option of
its name. -/
theorem setNames_sound {record : Data μ} {start : Settings} (h : ofData record = .ok start)
    (steps : List (String × Data μ)) :
    ((∃ states, start.setNames steps = .ok states) ↔ ∀ step ∈ steps, ¬ Replaces step.1 step.2) ∧
    ∀ states, start.setNames steps = .ok states →
      let s := start.last states
      let taken (name : String) := lastAccepted record.fields steps states name
      s.Sound ∧
      (∀ k : Field, s.TakenFrom k (taken k.name)) ∧
      s.tools = ((((taken "tools").map suppliedNames).getD []).filter (!Text.blank ·)).map
        (fun n => Text.lower (Text.strip n)) ∧
      ∀ name v,
        (∀ f, s.setName name v = .error f →
          start.setNames (steps ++ [(name, v)]) = .ok (states ++ [(s, some f)])) ∧
        (∀ t, s.setName name v = .ok (some t) →
          start.setNames (steps ++ [(name, v)]) = .ok (states ++ [(t, none)]) ∧
          ∀ k : Field, (k.name = name → k.rule v = .ok (t.value k)) ∧
            (k.name ≠ name → t.value k = s.value k)) := by
  refine ⟨exists_setNames start steps, ?_⟩
  intro states hstates s taken
  have htaken : ∀ k : Field, s.TakenFrom k (taken k.name) :=
    takenFrom_setNames (takenFrom_ofData h) hstates
  refine ⟨sound_of_takenFrom htaken, htaken, tools_takenFrom (htaken .tools), ?_⟩
  intro name v
  have hnext := setNames_concat hstates name v
  constructor
  · intro f hf
    rw [hnext, hf]
  · intro t ht
    refine ⟨?_, value_of_setName ht⟩
    rw [hnext, ht]

/-- A number of jobs that is refused and names for tools that are accepted. -/
theorem setNames_sound_refusing :
    let hour : Double := .finite false 3600 1074
    let record : Json :=
      .record [("tools", .text "Ruff, ,MYPY "), ("jobs", .text "2"), ("timeout", .float hour)]
    let start : Settings := { tools := ["ruff", "mypy"], jobs := 2, timeout := hour }
    let s : Settings := { start with tools := ["bandit"] }
    let steps : List (String × Json) :=
      [("jobs", .int 0), ("tools", .list [.text " Bandit", .text " "])]
    ofData record = .ok start ∧
      ∃ states, start.setNames steps = .ok states ∧ s.Sound ∧
        lastAccepted record.fields steps states "tools" =
          some (.list [.text " Bandit", .text " "]) ∧
        (∃ f, s.setName "fix" (.text "maybe" : Json) = .error f ∧
          start.setNames (steps ++ [("fix", .text "maybe")]) = .ok (states ++ [(s, some f)])) ∧
        ∃ t, s.setName "fix" (.text "yes" : Json) = .ok (some t) ∧ t.fix = true ∧
          t.value .jobs = s.value .jobs := by
  intro hour record start s steps
  have hread : ofData record = .ok start := toOption_eq_some.mp (by decide +kernel)
  have hstates : start.setNames steps =
      .ok [(start, some (.invalid [⟨[.field "jobs"], .below 1⟩])), (s, none)] := rfl
  obtain ⟨-, hreached⟩ := setNames_sound hread steps
  obtain ⟨hsound, -, -, hnext⟩ := hreached _ hstates
  have hfault : ∃ f, s.setName "fix" (.text "maybe" : Json) = .error f := ⟨_, rfl⟩
  have hset : ∃ t, s.setName "fix" (.text "yes" : Json) = .ok (some t) := ⟨_, rfl⟩
  obtain ⟨f, hf⟩ := hfault
  obtain ⟨t, ht⟩ := hset
  have hvalues := ((hnext "fix" (.text "yes")).2 t ht).2
  refine ⟨hread, _, hstates, hsound, rfl, ⟨f, hf, (hnext "fix" (.text "maybe")).1 f hf⟩, t, ht, ?_,
    (hvalues .jobs).2 (by decide)⟩
  exact (Except.ok.inj ((hvalues .fix).1 rfl)).symm

end CodeAudit.Settings
