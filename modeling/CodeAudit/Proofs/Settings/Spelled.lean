import CodeAudit.CommandLine.Program
import CodeAudit.Proofs.Path.Names
import CodeAudit.Proofs.Settings.Assignment
import CodeAudit.Proofs.Settings.Layers
import CodeAudit.Proofs.Text.Lines
namespace CodeAudit.Settings
open Schema Toml

/-- Pieces of a text that hold some entries, in order: each entry has any white space around it, and
any number of pieces are blank. -/
inductive Padded : List String → List String → Prop
  | none : Padded [] []
  | blank {piece : String} {pieces entries : List String} (hpiece : Text.blank piece = true)
    (rest : Padded pieces entries) : Padded (piece :: pieces) entries
  | entry {before entry after : String} {pieces entries : List String}
    (hbefore : Text.blank before = true) (hafter : Text.blank after = true)
    (rest : Padded pieces entries) :
    Padded ((before ++ entry ++ after) :: pieces) (entry :: entries)

/-- A text that holds some entries between commas. -/
def Spells (entries : List String) (s : String) : Prop :=
  ∃ pieces, s = ",".intercalate pieces ∧ Padded pieces entries

/-- What can stand between commas as it is. -/
def IsEntry (x : String) : Prop := x ≠ "" ∧ ',' ∉ x.toList ∧ Text.strip x = x

instance (x : String) : Decidable (IsEntry x) :=
  inferInstanceAs (Decidable (x ≠ "" ∧ ',' ∉ x.toList ∧ Text.strip x = x))

/-- The options that are lists of texts. -/
def listFields : List Field := [.tools, .exclude, .only, .lineCheckOmit]

section
variable {pieces xs : List String}

theorem not_comma_of_blank {s : String} (h : Text.blank s = true) : ',' ∉ s.toList := by
  intro hmem
  have hblank := List.all_eq_true.mp h ',' hmem
  exact absurd hblank (by decide)

theorem Padded.not_comma (h : Padded pieces xs) (hxs : ∀ x ∈ xs, IsEntry x) :
    ∀ piece ∈ pieces, ',' ∉ piece.toList := by
  induction h with
  | none => exact List.forall_mem_nil _
  | blank hpiece _ ih => exact List.forall_mem_cons.mpr ⟨not_comma_of_blank hpiece, ih hxs⟩
  | entry hbefore hafter _ ih =>
    rw [List.forall_mem_cons] at hxs
    refine List.forall_mem_cons.mpr ⟨?_, ih hxs.2⟩
    simp only [String.toList_append, List.mem_append, not_or]
    exact ⟨⟨not_comma_of_blank hbefore, hxs.1.2.1⟩, not_comma_of_blank hafter⟩

theorem strip_padded {before entry after : String} (hbefore : Text.blank before = true)
    (hafter : Text.blank after = true) (hentry : Text.strip entry = entry) :
    Text.strip (before ++ entry ++ after) = entry := by
  have hcut : Text.Cut (before ++ entry ++ after).toList entry.toList :=
    ⟨before.toList, after.toList, by simp, hbefore, hafter⟩
  rw [Text.strip, ← hcut.trim_eq]
  exact hentry

theorem strip_blank {s : String} (h : Text.blank s = true) : Text.strip s = "" := by
  rw [Text.strip, (Text.trim_eq_nil_iff _).mpr h]

theorem Padded.kept (h : Padded pieces xs) (hxs : ∀ x ∈ xs, IsEntry x) :
    (pieces.map Text.strip).filter (· ≠ "") = xs := by
  induction h with
  | none => rfl
  | blank hpiece _ ih =>
    rw [List.map_cons, strip_blank hpiece, List.filter_cons_of_neg (by simp)]
    exact ih hxs
  | entry hbefore hafter _ ih =>
    obtain ⟨⟨hne, -, hstrip⟩, hrest⟩ := List.forall_mem_cons.mp hxs
    rw [List.map_cons, strip_padded hbefore hafter hstrip, List.filter_cons_of_pos (by simpa),
      ih hrest]

/-- The pieces of a text are those between its commas. -/
theorem entries_intercalate (h : Padded pieces xs) (hxs : ∀ x ∈ xs, IsEntry x) :
    entries (",".intercalate pieces) = xs := by
  cases pieces with
  | nil =>
    cases h
    rfl
  | cons piece pieces =>
    have hcommas : ∀ p ∈ (piece :: pieces).map String.toList, ',' ∉ p := by
      intro p hp
      obtain ⟨s, hs, rfl⟩ := List.mem_map.mp hp
      exact h.not_comma hxs s hs
    have hsplit : suppliedNames (.text (",".intercalate (piece :: pieces)) : Json) =
        piece :: pieces := by
      have hchars : (",".intercalate (piece :: pieces)).toList =
          [','].intercalate ((piece :: pieces).map String.toList) := String.toList_intercalate
      have hid : String.ofList ∘ String.toList = id := funext fun s => String.ofList_toList
      rw [suppliedNames, hchars, Text.splitAt_intercalate _ _ (by simp) hcommas, List.map_map, hid,
        List.map_id]
    rw [entries_eq (μ := Empty), hsplit]
    exact h.kept hxs

theorem toolNames_entries (hxs : ∀ x ∈ xs, IsEntry x) : toolNames xs = xs.map Text.lower := by
  have hkept : xs.filter (!Text.blank ·) = xs := by
    rw [List.filter_eq_self]
    intro x hx
    rw [Bool.not_eq_true', ← Bool.not_eq_true]
    intro hblank
    exact (hxs x hx).1 ((hxs x hx).2.2.symm.trans (strip_blank hblank))
  rw [toolNames, hkept]
  exact List.map_congr_left fun x hx => by rw [(hxs x hx).2.2]

end

section
variable {μ : Type} {xs : List String} {t : String} (hxs : ∀ x ∈ xs, IsEntry x) (ht : Spells xs t)
include hxs ht

theorem textsRule_spelled : textsRule (.text t : Data μ) = .ok xs := by
  obtain ⟨pieces, rfl, hpadded⟩ := ht
  rw [textsRule, entries_intercalate hpadded hxs]

theorem toolsRule_spelled : toolsRule (.text t : Data μ) = .ok (xs.map Text.lower) := by
  rw [toolsRule, textsRule_spelled hxs ht, ← toolNames_entries hxs]
  rfl

theorem rule_spelled {k : Field} (hk : k ∈ listFields) :
    k.rule (.text t : Data μ) = k.rule (.list (xs.map .text) : Data μ) := by
  have hlist : textsRule (.list (xs.map .text) : Data μ) = .ok xs := listOf_texts xs
  have htexts : textsRule (.text t : Data μ) = textsRule (.list (xs.map .text)) :=
    (textsRule_spelled hxs ht).trans hlist.symm
  simp only [listFields, List.mem_cons, List.not_mem_nil, or_false] at hk
  rcases hk with rfl | rfl | rfl | rfl
  · exact congrArg (Except.map toolNames) htexts
  · exact htexts
  · exact htexts
  · exact htexts

end

section
variable {μ : Type} {fields fields' : Fields μ} {k : Field} {v v' : Data μ}

/-- The checks of all options, one after the other. -/
def checks (get : (k : Field) → Checked k.Kind) : Checked Settings :=
  Checked.start Settings.mk
    |>.also (get .timeout)
    |>.also (get .tools)
    |>.also (get .exclude)
    |>.also (get .only)
    |>.also (get .fix)
    |>.also (get .licenses)
    |>.also (get .autoInstall)
    |>.also (get .outputFormat)
    |>.also (get .maxLines)
    |>.also (get .lineCheckOmit)
    |>.also (get .jobs)
    |>.also (get .verbose)

theorem ofFields_eq (fields : Fields μ) :
    ofFields fields = forbidUnexpected fields (checks (read fields)) := rfl

/-- Values that are read alike for an option make the same settings, or the same issues. -/
theorem ofFields_put_congr (hrule : k.rule v = k.rule v') (fields : Fields μ) :
    ofFields (Fields.put k.name v fields) = ofFields (Fields.put k.name v' fields) := by
  have hread : read (Fields.put k.name v fields) = read (Fields.put k.name v' fields) := by
    funext j
    unfold read defaulted Fields.find?
    rw [Fields.lookup_put, Fields.lookup_put]
    by_cases hj : j.name = k.name
    · obtain rfl := name_injective hj
      simp only [if_true, hrule]
    · simp only [if_neg hj]
  have hunexpected :
      unexpected (Fields.put k.name v fields) = unexpected (Fields.put k.name v' fields) := by
    rw [unexpected, unexpected, Fields.names_put, Fields.names_put]
  rw [ofFields_eq, ofFields_eq, hread]
  unfold forbidUnexpected
  rw [hunexpected]

/-- Records that give the same but for an option, whose values in both are read alike, make the same
settings if they make any. -/
theorem ofFields_ok_congr (hrule : k.rule v = k.rule v') (hv : fields.find? k.name = some v)
    (hv' : fields'.find? k.name = some v')
    (hother : ∀ name, name ≠ k.name → fields.find? name = fields'.find? name) {s : Settings} :
    ofFields fields = .ok s ↔ ofFields fields' = .ok s := by
  have hnames (name : String) : name ∈ fields.names ↔ name ∈ fields'.names := by
    rw [Fields.mem_names_iff, Fields.mem_names_iff]
    by_cases hname : name = k.name
    · simp [hname, hv, hv']
    · rw [hother name hname]
  have htaken (j : Field) :
      s.TakenFrom j (fields.find? j.name) ↔ s.TakenFrom j (fields'.find? j.name) := by
    by_cases hj : j.name = k.name
    · obtain rfl := name_injective hj
      rw [hv, hv', TakenFrom, TakenFrom, hrule]
    · rw [hother j.name hj]
  simp only [ofFields_eq_ok, htaken, hnames]

end

/-- The tables in a directory: that of its project, and its own. -/
structure Holds (h : Host) (files : FileTree) (directory : Path) (own project : Table) : Prop where
  project : readTableIn h files directory "pyproject.toml" = .ok project
  own : readTableIn h files directory ".fast-cv.toml" = .ok own

/-- What all layers together give for a name. -/
def given (overrides own project : Table) (name : String) : Option Value :=
  (asked overrides name).or ((supplied own name).or (supplied (programTable project) name))

/-- What a command line gives for an option that is a list of texts. -/
def Field.argument (a : ScanArguments) : Field → Option String
  | tools => a.tools
  | exclude => a.exclude
  | only => a.only
  | _ => none

theorem asked_argument {a : ScanArguments} {k : Field} {t : String} (h : k.argument a = some t) :
    asked a.overrides k.name = some (.text t) := by
  have htools : supplied a.overrides "tools" = some ((a.tools.map .text).getD .null) := rfl
  have hexclude : supplied a.overrides "exclude" = some ((a.exclude.map .text).getD .null) := rfl
  have honly : supplied a.overrides "only" = some ((a.only.map .text).getD .null) := rfl
  cases k
  case tools =>
    rw [asked, Field.name, htools, show a.tools = some t from h]
    rfl
  case exclude =>
    rw [asked, Field.name, hexclude, show a.exclude = some t from h]
    rfl
  case only =>
    rw [asked, Field.name, honly, show a.only = some t from h]
    rfl
  all_goals cases h

section
variable {h : Host} {files files' : FileTree} {directory : Path} {k : Field} {v v' : Value}
  {overrides overrides' own own' project project' : Table} {s : Settings}

theorem Holds.load_eq_ok (hholds : Holds h files directory own project) :
    load h files directory overrides = .ok s ↔
      ofFields (layered overrides own project) = .ok s := by
  rw [load_eq overrides hholds.project hholds.own]
  cases ofFields (layered overrides own project) with
  | ok t => simp only [Except.ok.injEq]
  | error issues => simp only [reduceCtorEq]

/-- Layers that give the same but for an option, and for it values that are read alike. -/
theorem Holds.load_congr (hholds : Holds h files directory own project)
    (hholds' : Holds h files' directory own' project') (hrule : k.rule v = k.rule v')
    (hv : given overrides own project k.name = some v)
    (hv' : given overrides' own' project' k.name = some v')
    (hother : ∀ name, name ≠ k.name →
      given overrides own project name = given overrides' own' project' name) :
    load h files directory overrides = .ok s ↔ load h files' directory overrides' = .ok s := by
  have hfind (overrides own project : Table) (name : String) :
      (layered overrides own project).find? name = given overrides own project name :=
    find?_layered overrides own project name
  rw [hholds.load_eq_ok, hholds'.load_eq_ok]
  refine ofFields_ok_congr hrule ((hfind ..).trans hv) ((hfind ..).trans hv') fun name hname => ?_
  rw [hfind, hfind, hother name hname]

end

/-- A text of entries between commas and the list of these entries are the same value of an option
that is a list of texts: in a record of options, when an option is set anew, and in the layers of
settings, so the list can stand in a file where the text is an argument of a command line. -/
theorem load_spelled {xs : List String} {t : String} (hxs : ∀ x ∈ xs, IsEntry x)
    (ht : Spells xs t) :
    (∀ (μ : Type) (v : Data μ), v = .text t ∨ v = .list (xs.map .text) →
      textsRule v = .ok xs ∧ toolsRule v = .ok (xs.map Text.lower)) ∧
    ∀ k ∈ listFields,
      (∀ (μ : Type) (fields : Fields μ), ofFields (Fields.put k.name (.text t) fields) =
        ofFields (Fields.put k.name (.list (xs.map .text)) fields)) ∧
      (∀ (μ : Type) (s : Settings), s.assign k.name (.text t : Data μ) =
        s.assign k.name (.list (xs.map .text) : Data μ)) ∧
      ∀ (h : Host) (files files' : FileTree) (directory : Path)
        (overrides overrides' own own' project project' : Table),
        Holds h files directory own project → Holds h files' directory own' project' →
        given overrides own project k.name = some (.text t) ∨
          (∃ a : ScanArguments, overrides = a.overrides ∧ k.argument a = some t) →
        given overrides' own' project' k.name = some (.list (xs.map .text)) →
        (∀ name, name ≠ k.name →
          given overrides own project name = given overrides' own' project' name) →
        ∀ s, load h files directory overrides = .ok s ↔
          load h files' directory overrides' = .ok s := by
  refine ⟨?_, fun k hk => ⟨?_, ?_, ?_⟩⟩
  · rintro μ v (rfl | rfl)
    · exact ⟨textsRule_spelled hxs ht, toolsRule_spelled hxs ht⟩
    · have hrule : toolsRule (.text t : Data μ) = toolsRule (.list (xs.map .text)) :=
        rule_spelled hxs ht (k := .tools) (by simp [listFields])
      exact ⟨listOf_texts xs, hrule.symm.trans (toolsRule_spelled hxs ht)⟩
  · intro μ fields
    exact ofFields_put_congr (rule_spelled hxs ht hk) fields
  · intro μ s
    rw [assign_name, assign_name, rule_spelled hxs ht hk]
  · intro h files files' directory overrides overrides' own own' project project' hholds hholds'
      htext hlist hother s
    have hgiven : given overrides own project k.name = some (.text t) := by
      obtain hgiven | ⟨a, rfl, ha⟩ := htext
      · exact hgiven
      · rw [given, asked_argument ha, Option.some_or]
    exact hholds.load_congr hholds' (rule_spelled hxs ht hk) hgiven hlist hother

/-- A project that names its analyzers in a list. -/
def listedTree : FileTree :=
  .directory [("repo", .directory [
    (".fast-cv.toml", .file (Text.encode "tools = [\"Ruff\", \"mypy\"]\n") false)])]

theorem load_spelled_tools :
    let a : ScanArguments := { tools := some " Ruff,, mypy ," }
    let plain : FileTree := .directory [("repo", .directory [])]
    Spells ["Ruff", "mypy"] " Ruff,, mypy ," ∧
      load Host.sampleHost plain Host.sampleRoot a.overrides = .ok { tools := ["ruff", "mypy"] } ∧
      load Host.sampleHost listedTree Host.sampleRoot ({} : ScanArguments).overrides =
        .ok { tools := ["ruff", "mypy"] } := by
  intro a plain
  have hxs : ∀ x ∈ ["Ruff", "mypy"], IsEntry x := by decide
  have ht : Spells ["Ruff", "mypy"] " Ruff,, mypy ," :=
    ⟨[" " ++ "Ruff" ++ "", "", " " ++ "mypy" ++ " ", ""], by decide,
      .entry (by decide) (by decide) (.blank (by decide) (.entry (by decide) (by decide)
        (.blank (by decide) .none)))⟩
  have hplain : Holds Host.sampleHost plain Host.sampleRoot [] [] := ⟨rfl, rfl⟩
  have hlisted : Holds Host.sampleHost listedTree Host.sampleRoot
    [("tools", .list [.text "Ruff", .text "mypy"])] [] := ⟨rfl, rfl⟩
  have hread : load Host.sampleHost plain Host.sampleRoot a.overrides =
      .ok { tools := ["ruff", "mypy"] } := by
    have hoption : (load Host.sampleHost plain Host.sampleRoot a.overrides).toOption =
      some { tools := ["ruff", "mypy"] } := by decide +kernel
    exact toOption_eq_some.mp hoption
  obtain ⟨-, -, hload⟩ := (load_spelled hxs ht).2 .tools (by decide)
  have hsame := hload _ _ _ _ _ ({} : ScanArguments).overrides _ _ _ _ hplain hlisted
    (.inr ⟨a, rfl, rfl⟩) rfl
  refine ⟨ht, hread, (hsame ?_ _).mp hread⟩
  intro name hname
  have htools : decide (plainName "tools" = name) = false := by
    rw [show plainName "tools" = "tools" by decide, decide_eq_false_iff_not]
    exact hname.symm
  simp only [given, asked, supplied, ScanArguments.overrides, a, List.reverse_cons,
    List.reverse_nil, List.nil_append, List.cons_append, List.find?_cons, htools]

end CodeAudit.Settings
