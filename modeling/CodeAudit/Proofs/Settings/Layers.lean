import CodeAudit.Proofs.Scan.Inventory
import CodeAudit.Proofs.Settings.Options
import CodeAudit.Settings.Load
namespace CodeAudit.Settings
open Toml

/-- What a table gives for a name: the value of the last of its keys that become the name when
their hyphens are made low lines. -/
def supplied (t : Table) (name : String) : Option Value :=
  (t.reverse.find? fun (key, _) => plainName key = name).map (·.2)

/-- What is asked for on top for a name, where `null` asks for nothing. -/
def asked (overrides : Table) (name : String) : Option Value :=
  match supplied overrides name with
  | some .null => none
  | answer => answer

/-- The table for this program in a project: `fast-cv` in `tool`, if both are tables. -/
def programTable (project : Table) : Table :=
  match Fields.find? "tool" project with
  | some (.record tool) =>
    match Fields.find? "fast-cv" tool with
    | some (.record own) => own
    | _ => []
  | _ => []

theorem section?_eq (project : Table) : section? project = programTable project := by
  have hfields (t : Table) (name : String) :
      (Fields.get t name).fields = match Fields.find? name t with
        | some (.record inner) => inner
        | _ => [] := by
    rw [Fields.get, Fields.find?]
    cases t.lookup name with
    | none => rfl
    | some v => cases v <;> rfl
  rw [section?, hfields, hfields, programTable]
  cases Fields.find? "tool" project with
  | none => rfl
  | some v => cases v <;> rfl

theorem plainName_plainName (name : String) : plainName (plainName name) = plainName name := by
  simp only [plainName, String.toList_ofList, List.map_map]
  congr 1
  apply List.map_congr_left
  intro c _
  by_cases hc : c = '-' <;> simp [hc]

section
variable (t overrides own project : Table)

theorem find?_plainNames (name : String) : (plainNames t).find? name = supplied t name := by
  have hlookup (fields : Table) :
      Fields.find? name (fields.map fun (key, v) => (plainName key, v)) =
        (List.find? (fun (key, _) => plainName key = name) fields).map (·.2) := by
    induction fields with
    | nil => rfl
    | cons f rest ih =>
      obtain ⟨key, v⟩ := f
      rw [List.map_cons, Fields.find?_cons, ih, List.find?_cons]
      by_cases hkey : plainName key = name
      · simp [hkey]
      · simp [hkey, Ne.symm hkey]
  rw [plainNames, Fields.find?_putAll, ← List.map_reverse, hlookup, supplied]
  exact Option.or_none

theorem plainNames_nodup : (plainNames t).names.Nodup := Fields.nodup_putAll [] _ .nil

theorem plain_of_mem_plainNames {name : String} (h : name ∈ (plainNames t).names) :
    plainName name = name := by
  rw [plainNames, Fields.mem_names_putAll] at h
  obtain h | h := h
  · simp only [Fields.names, List.map_map, List.mem_map] at h
    obtain ⟨f, -, rfl⟩ := h
    exact plainName_plainName f.1
  · cases h

/-- The fields that are asked for on top, by their plain names. -/
def askedFields : Table :=
  (plainNames overrides).filter fun (_, v) =>
    match v with
    | .null => false
    | _ => true

theorem askedFields_nodup : (askedFields overrides).names.Nodup :=
  (plainNames_nodup overrides).sublist (List.filter_sublist.map _)

theorem find?_askedFields (name : String) :
    (askedFields overrides).find? name = asked overrides name := by
  have hfilter := Fields.find?_filter (plainNames_nodup overrides)
    (fun v => match v with
      | .null => false
      | _ => true) name
  refine hfilter.trans ?_
  rw [find?_plainNames, asked]
  cases supplied overrides name with
  | none => rfl
  | some v => cases v <;> rfl

/-- The settings of all layers together, by their plain names. -/
def layered : Table :=
  override (Fields.putAll (plainNames (section? project)) (plainNames own)) overrides

theorem find?_layered (name : String) :
    (layered overrides own project).find? name = (asked overrides name).or
      ((supplied own name).or (supplied (programTable project) name)) := by
  have hasked := askedFields_nodup overrides
  have hown := plainNames_nodup own
  have hover : layered overrides own project =
    Fields.putAll (Fields.putAll (plainNames (section? project)) (plainNames own))
      (askedFields overrides) := rfl
  rw [hover, Fields.find?_putAll, Fields.find?_putAll, Fields.find?_reverse hasked,
    Fields.find?_reverse hown, find?_askedFields, find?_plainNames, find?_plainNames, section?_eq]

theorem layered_nodup : (layered overrides own project).names.Nodup :=
  Fields.nodup_putAll _ _ (Fields.nodup_putAll _ _ (plainNames_nodup _))

theorem plain_of_mem_layered {name : String} (h : name ∈ (layered overrides own project).names) :
    plainName name = name := by
  rw [layered, override, Fields.mem_names_putAll, Fields.mem_names_putAll] at h
  obtain h | h | h := h
  · have hmem : name ∈ (plainNames overrides).names := (List.filter_sublist.map _).subset h
    exact plain_of_mem_plainNames overrides hmem
  · exact plain_of_mem_plainNames own h
  · exact plain_of_mem_plainNames _ h

end

theorem load_eq {h : Host} {files : FileTree} {directory : Path} {own project : Table}
    (overrides : Table)
    (hproject : readTableIn h files directory "pyproject.toml" = .ok project)
    (hown : readTableIn h files directory ".fast-cv.toml" = .ok own) :
    load h files directory overrides =
      match ofFields (layered overrides own project) with
      | .ok s => .ok s
      | .error issues => .error
          (.invalidSettings issues (h.wording.settings (layered overrides own project))) := by
  have hfound : inDirectory h files directory =
      .ok (Fields.putAll (plainNames (section? project)) (plainNames own)) := by
    rw [inDirectory, hproject, hown]
    rfl
  rw [load, hfound]
  show (match ofFields (layered overrides own project) with
    | .ok s => pure s
    | .error issues => throw _ : Except Fault Settings) = _
  cases ofFields (layered overrides own project) <;> rfl

/-- What is read for an option is what the highest layer gives for it, whichever way its name is
spelled there, and an option that no layer names keeps its default. A name that is none of an
option makes the settings invalid in whatever layer it stands. -/
theorem load_layers (h : Host) (files : FileTree) (directory : Path)
    (overrides own project : Table)
    (hproject : readTableIn h files directory "pyproject.toml" = .ok project)
    (hown : readTableIn h files directory ".fast-cv.toml" = .ok own) :
    ∃ payload : Table,
      payload.names.Nodup ∧ (∀ name ∈ payload.names, plainName name = name) ∧
      (∀ name, payload.find? name = (asked overrides name).or
        ((supplied own name).or (supplied (programTable project) name))) ∧
      load h files directory overrides = (match ofFields payload with
        | .ok s => .ok s
        | .error issues => .error (.invalidSettings issues (h.wording.settings payload))) ∧
      (∀ s, load h files directory overrides = .ok s →
        ∀ k : Field, s.TakenFrom k (payload.find? k.name)) ∧
      ∀ name, name ∉ names →
        (asked overrides name).isSome ∨ (supplied own name).isSome ∨
          (supplied (programTable project) name).isSome →
        ∃ issues, load h files directory overrides =
            .error (.invalidSettings issues (h.wording.settings payload)) ∧
          ⟨[.field name], .unexpected⟩ ∈ issues := by
  have hload := load_eq overrides hproject hown
  refine ⟨layered overrides own project, layered_nodup .., fun name => plain_of_mem_layered _ _ _,
    find?_layered overrides own project, hload, ?_, ?_⟩
  · intro s hs k
    have hok : ofFields (layered overrides own project) = .ok s := by
      rw [hload] at hs
      split at hs
      · next t ht => rw [ht, Except.ok.inj hs]
      · cases hs
    exact (ofFields_eq_ok.mp hok).1 k
  · intro name hname hgiven
    have hmem : name ∈ (layered overrides own project).names := by
      rw [Fields.mem_names_iff, ← Option.isSome_iff_exists, find?_layered, Option.isSome_or,
        Option.isSome_or]
      simpa using hgiven
    obtain ⟨issues, hissues, hissue⟩ := ofFields_unexpected hmem hname
    refine ⟨issues, ?_, hissue⟩
    rw [hload, hissues]

/-- A project and its own settings, which spell an option in two ways. -/
def layeredTree : FileTree :=
  .directory [("repo", .directory [
    ("pyproject.toml", .file (Text.encode "[tool.fast-cv]\nmax-lines = 400\njobs = 2\n") false),
    (".fast-cv.toml", .file (Text.encode "max_lines = 45\n") false)])]

theorem load_layers_hyphens :
    let project : Table :=
      [("tool", .record [("fast-cv", .record [("max-lines", .int 400), ("jobs", .int 2)])])]
    let own : Table := [("max_lines", .int 45)]
    let overrides : Table := [("jobs", .int 3), ("max-lines", .null)]
    readTableIn Host.sampleHost layeredTree Host.sampleRoot "pyproject.toml" = .ok project ∧
      readTableIn Host.sampleHost layeredTree Host.sampleRoot ".fast-cv.toml" = .ok own ∧
      (∃ s, load Host.sampleHost layeredTree Host.sampleRoot overrides = .ok s) ∧
      (∀ s, load Host.sampleHost layeredTree Host.sampleRoot overrides = .ok s →
        s.maxLines = 45 ∧ s.jobs = 3 ∧ s.fix = false) ∧
      ∃ issues cause, load Host.sampleHost layeredTree Host.sampleRoot [("colour", .bool true)] =
        .error (.invalidSettings issues cause) := by
  intro project own overrides
  have hproject : readTableIn Host.sampleHost layeredTree Host.sampleRoot "pyproject.toml" =
    .ok project := rfl
  have hown : readTableIn Host.sampleHost layeredTree Host.sampleRoot ".fast-cv.toml" = .ok own :=
    rfl
  obtain ⟨payload, -, -, hgiven, hload, htaken, -⟩ :=
    load_layers _ _ _ overrides own project hproject hown
  obtain ⟨_, -, -, -, -, -, hunknown⟩ :=
    load_layers _ _ _ [("colour", .bool true)] own project hproject hown
  refine ⟨hproject, hown, ?_, ?_, ?_⟩
  · have hread : (load Host.sampleHost layeredTree Host.sampleRoot overrides).toOption =
      some { maxLines := 45, jobs := 3 } := by decide +kernel
    exact ⟨_, toOption_eq_some.mp hread⟩
  · intro s hs
    have hmax := htaken s hs .maxLines
    have hjobs := htaken s hs .jobs
    have hfix := htaken s hs .fix
    rw [hgiven] at hmax hjobs hfix
    exact ⟨(Except.ok.inj hmax).symm, (Except.ok.inj hjobs).symm, hfix⟩
  · obtain ⟨issues, hissues, -⟩ := hunknown "colour" (by decide) (by decide)
    exact ⟨issues, _, hissues⟩

end CodeAudit.Settings
