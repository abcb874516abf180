import CodeAudit.Proofs.Files.Look
import CodeAudit.Proofs.Registry.Distinct
import CodeAudit.Scan.Inventory
namespace CodeAudit.Inventory
open FileTree

section
variable (enters : Place → Bool)

theorem mem_insertByName (name : String) (places : List Place) (place : Place)
    (below : List (String × List Place)) :
    (∃ e ∈ insertByName name places below, place ∈ e.2) ↔
      place ∈ places ∨ ∃ e ∈ below, place ∈ e.2 := by
  induction below with
  | nil => simp [insertByName]
  | cons d rest ih =>
    rw [insertByName]
    split
    · simp only [List.mem_cons, exists_eq_or_imp]
    · simp only [List.mem_cons, exists_eq_or_imp, ih]
      exact or_left_comm

/-- What is met in the entries of a directory, at once or below one of them. -/
theorem mem_metIn (names place : Place) (entries : List (String × FileTree)) :
    (place ∈ (metIn enters names entries).1 ∨
        ∃ e ∈ (metIn enters names entries).2, place ∈ e.2) ↔
      ∃ e ∈ entries, place ∈ metAt enters (names ++ [e.1]) e.2 := by
  induction entries with
  | nil => simp [metIn]
  | cons e rest ih =>
    obtain ⟨n, t⟩ := e
    simp only [List.mem_cons, exists_eq_or_imp]
    rw [← ih, metIn]
    cases t.isDirectory with
    | true =>
      simp only [if_true, mem_insertByName]
      exact or_left_comm
    | false =>
      simp only [Bool.false_eq_true, if_false, List.mem_append]
      exact or_assoc

theorem mem_metAt_directory (names place : Place) (entries : List (String × FileTree)) :
    place ∈ metAt enters names (.directory entries) ↔
      enters names = true ∧ ∃ e ∈ entries, place ∈ metAt enters (names ++ [e.1]) e.2 := by
  rw [← mem_metIn, metAt]
  cases enters names with
  | false => simp
  | true => simp only [if_true, List.mem_append, List.mem_flatMap, true_and]

theorem metAt_leaf {t : FileTree} (ht : t.isDirectory = false) (names : Place) :
    metAt enters names t = [names] := by
  cases t with
  | directory entries => cases ht
  | closed listed => cases ht
  | _ => rfl

/-- The directories between a place and what is below it are entered, the place among them. -/
def Open (names rest : Place) : Prop :=
  ∀ above, above <+: rest → above ≠ rest → enters (names ++ above) = true

/-- What a walk meets: what is no directory, and the names in a directory that may not be
searched. -/
def Stands (t : FileTree) (rest : Place) : Prop :=
  (∃ s, t.at? rest = some s ∧ s.isDirectory = false) ∨
    ∃ above n listed, rest = above ++ [n] ∧ t.at? above = some (.closed listed) ∧ n ∈ listed

theorem open_nil (names : Place) : Open enters names [] := by
  intro above hp hne
  exact absurd (List.prefix_nil.mp hp) hne

theorem open_cons (names : Place) (n : String) (rest : Place) :
    Open enters names (n :: rest) ↔ enters names = true ∧ Open enters (names ++ [n]) rest := by
  constructor
  · intro h
    refine ⟨by simpa using h [] (List.nil_prefix) (by simp), ?_⟩
    intro above hp hne
    have hc := h (n :: above) (List.cons_prefix_cons.mpr ⟨rfl, hp⟩) (by simpa using hne)
    simpa using hc
  · intro h above hp hne
    obtain ⟨hn, hr⟩ := h
    cases above with
    | nil => simpa using hn
    | cons m above =>
      obtain ⟨hm, hbelow⟩ := List.cons_prefix_cons.mp hp
      subst m
      simpa using hr above hbelow (by simpa using hne)

theorem stands_nil (t : FileTree) : Stands t [] ↔ t.isDirectory = false := by
  simp [Stands, at?]

theorem stands_directory (entries : List (String × FileTree)) (n : String) (rest : Place) :
    Stands (.directory entries) (n :: rest) ↔ ∃ t, entries.lookup n = some t ∧ Stands t rest := by
  constructor
  · intro h
    rcases h with ⟨s, hs, hdir⟩ | ⟨above, m, listed, hsplit, hc, hm⟩
    · obtain ⟨t, ht, hs⟩ := Option.bind_eq_some_iff.mp (at?_directory n rest entries ▸ hs)
      exact ⟨t, ht, .inl ⟨s, hs, hdir⟩⟩
    · cases above with
      | nil => cases hc
      | cons k above =>
        obtain ⟨rfl, rfl⟩ := List.cons.inj hsplit
        obtain ⟨t, ht, hc⟩ := Option.bind_eq_some_iff.mp (at?_directory n above entries ▸ hc)
        exact ⟨t, ht, .inr ⟨above, m, listed, rfl, hc, hm⟩⟩
  · intro h
    obtain ⟨t, ht, ⟨s, hs, hdir⟩ | ⟨above, m, listed, rfl, hc, hm⟩⟩ := h
    · refine .inl ⟨s, ?_, hdir⟩
      rw [at?_directory, ht]
      exact hs
    · refine .inr ⟨n :: above, m, listed, rfl, ?_, hm⟩
      rw [at?_directory, ht]
      exact hc

theorem stands_closed (listed : List String) (rest : Place) :
    Stands (.closed listed) rest ↔ ∃ n ∈ listed, rest = [n] := by
  constructor
  · intro h
    rcases h with ⟨s, hs, hdir⟩ | ⟨above, n, names, rfl, hc, hn⟩
    · cases rest with
      | nil =>
        obtain rfl : FileTree.closed listed = s := Option.some.inj hs
        cases hdir
      | cons n rest => cases hs
    · cases above with
      | nil =>
        cases hc
        exact ⟨n, hn, rfl⟩
      | cons m above => cases hc
  · intro h
    obtain ⟨n, hn, rfl⟩ := h
    exact .inr ⟨[], n, listed, rfl, rfl, hn⟩

theorem stands_leaf {t : FileTree} (ht : t.isDirectory = false) (rest : Place) :
    Stands t rest ↔ rest = [] := by
  cases rest with
  | nil => simpa using (stands_nil t).mpr ht
  | cons n rest =>
    refine iff_of_false ?_ (by simp)
    intro h
    have hnone (m : String) (place : Place) : t.at? (m :: place) = none := by
      cases t with
      | directory entries => cases ht
      | _ => rfl
    rcases h with ⟨s, hs, -⟩ | ⟨above, m, listed, hsplit, hc, -⟩
    · rw [hnone] at hs
      cases hs
    · cases above with
      | nil =>
        obtain rfl : t = .closed listed := Option.some.inj hc
        cases ht
      | cons k above =>
        rw [hnone] at hc
        cases hc

/-- A place leads from `names` down to something that a walk meets, through directories that are
entered. -/
def Found (names place : Place) (t : FileTree) : Prop :=
  ∃ rest, place = names ++ rest ∧ Stands t rest ∧ Open enters names rest

theorem found_directory (names place : Place) (entries : List (String × FileTree))
    (hn : (entries.map Prod.fst).Nodup) :
    Found enters names place (.directory entries) ↔
      enters names = true ∧ ∃ e ∈ entries, Found enters (names ++ [e.1]) place e.2 := by
  constructor
  · intro h
    obtain ⟨rest, rfl, hs, ho⟩ := h
    cases rest with
    | nil => cases (stands_nil _).mp hs
    | cons n rest =>
      obtain ⟨ht, ho⟩ := (open_cons enters names n rest).mp ho
      obtain ⟨t, hl, hs⟩ := (stands_directory entries n rest).mp hs
      exact ⟨ht, (n, t), mem_of_lookup hl, rest, by simp, hs, ho⟩
  · intro h
    obtain ⟨ht, ⟨n, t⟩, hm, rest, rfl, hs, ho⟩ := h
    refine ⟨n :: rest, by simp, ?_, (open_cons enters names n rest).mpr ⟨ht, ho⟩⟩
    exact (stands_directory entries n rest).mpr ⟨t, (lookup_iff_mem hn n t).mpr hm, hs⟩

theorem found_closed (names place : Place) (listed : List String) :
    Found enters names place (.closed listed) ↔
      enters names = true ∧ ∃ n ∈ listed, place = names ++ [n] := by
  constructor
  · intro h
    obtain ⟨rest, rfl, hs, ho⟩ := h
    obtain ⟨n, hn, rfl⟩ := (stands_closed listed rest).mp hs
    exact ⟨((open_cons enters names n []).mp ho).1, n, hn, rfl⟩
  · intro h
    obtain ⟨ht, n, hn, rfl⟩ := h
    exact ⟨[n], rfl, (stands_closed listed [n]).mpr ⟨n, hn, rfl⟩,
      (open_cons enters names n []).mpr ⟨ht, open_nil enters _⟩⟩

theorem found_leaf (names place : Place) {t : FileTree} (ht : t.isDirectory = false) :
    Found enters names place t ↔ place = names := by
  constructor
  · intro h
    obtain ⟨rest, rfl, hs, -⟩ := h
    obtain rfl := (stands_leaf ht rest).mp hs
    rw [List.append_nil]
  · rintro rfl
    exact ⟨[], by simp, (stands_leaf ht []).mpr rfl, open_nil enters place⟩

/-- What a walk meets at a place is what is found there. -/
theorem mem_metAt (t : FileTree) (hw : t.WellFormed) (names place : Place) :
    place ∈ metAt enters names t ↔ Found enters names place t := by
  induction t using entryInduction generalizing names with
  | file content executable =>
    rw [found_leaf enters names place rfl, metAt_leaf enters rfl, List.mem_singleton]
  | link target => rw [found_leaf enters names place rfl, metAt_leaf enters rfl, List.mem_singleton]
  | unreadable => rw [found_leaf enters names place rfl, metAt_leaf enters rfl, List.mem_singleton]
  | closed listed =>
    rw [found_closed, metAt]
    cases enters names with
    | false => simp
    | true => simp [eq_comm]
  | directory entries ih =>
    rw [WellFormed, wellFormedEntries_iff] at hw
    rw [found_directory _ _ _ _ hw.1, mem_metAt_directory]
    refine and_congr_right fun _ => exists_congr fun e => and_congr_right fun hm => ?_
    exact ih e.1 e.2 hm (hw.2 e.1 e.2 hm).2 (names ++ [e.1])

end

/-- What is asked of the file `name` in the directory that `dirs` leads to, below the root of a
scan, for it to be scanned. -/
structure Listed (files : FileTree) (root : Place) (scope : Scope) (dirs : Place)
    (name : String) : Prop where
  entered : ∀ above, above <+: dirs → above ≠ [] →
    (∃ entries, files.at? (root ++ above) = some (.directory entries)) ∧
      scope.ignore.ignores (pathText above ++ "/") = false
  isEntry : ∃ t, files.at? (root ++ (dirs ++ [name])) = some t ∧ t.isDirectory = false
  isFile : leadsToFile files root (dirs ++ [name]) = .ok true
  notIgnored : scope.ignore.ignores (pathText (dirs ++ [name])) = false
  isSource : Text.lower (Path.ofText (pathText (dirs ++ [name]))).suffix ∈ sourceExtensions
  included : ∀ only, scope.only = some only → only.includes (pathText (dirs ++ [name])) = true

theorem pathText_injective {names others : Place} (hn : ∀ n ∈ names, Path.IsName n)
    (ho : ∀ n ∈ others, Path.IsName n) (h : pathText names = pathText others) :
    names = others := by
  rw [← Path.namesOf_intercalate names hn, ← Path.namesOf_intercalate others ho]
  exact congrArg (fun s => Path.namesOf s.toList) h

theorem extension_eq (names : Place) (hn : ∀ n ∈ names, Path.IsName n) :
    extension names = Text.lower (Path.ofText (pathText names)).suffix := by
  rw [extension, pathText, Path.ofText_intercalate names hn]

theorem isEmpty_iff (i : Inventory) : i.isEmpty = true ↔ i.files = [] := List.isEmpty_iff

/-- Below the directory it starts from, a walk meets what it can get to through directories that
are entered. -/
theorem mem_met (ignored : String → Bool) (files : FileTree) (root : Place)
    (hw : files.WellFormed) (entries : List (String × FileTree))
    (hd : files.at? root = some (.directory entries)) (place : Place) :
    place ∈ met ignored files root ↔
      Stands (.directory entries) place ∧
        ∀ above, above <+: place → above ≠ place → above ≠ [] →
          ignored (pathText above ++ "/") = false ∧ tooLong ⟨.root, root ++ above⟩ = false := by
  rw [met, hd, Option.map_some, Option.getD_some, mem_metAt _ _ (hw.at? hd).1]
  constructor
  · intro h
    obtain ⟨rest, rfl, hs, ho⟩ := h
    refine ⟨hs, fun above hp hne hnil => ?_⟩
    simpa [hnil] using ho above hp hne
  · intro h
    obtain ⟨hs, ho⟩ := h
    refine ⟨place, by simp, hs, fun above hp hne => ?_⟩
    by_cases hnil : above = []
    · simp [hnil]
    · simpa [hnil] using ho above hp hne hnil

/-- What is met and leads to a file stands in the tree: nothing is found in a directory that may
not be searched. -/
theorem at?_of_stands {files : FileTree} (hw : files.WellFormed) {root place : Place}
    {entries : List (String × FileTree)} (hd : files.at? root = some (.directory entries))
    (hs : Stands (.directory entries) place) (hfile : leadsToFile files root place = .ok true) :
    ∃ s, files.at? (root ++ place) = some s ∧ s.isDirectory = false := by
  have hat (rest : Place) : files.at? (root ++ rest) = at? rest (.directory entries) := by
    rw [at?_append, hd, Option.bind_some]
  rcases hs with ⟨s, hs, hdir⟩ | ⟨above, n, listed, rfl, hc, hn⟩
  · exact ⟨s, (hat place).trans hs, hdir⟩
  · have hclosed := (hat above).trans hc
    obtain ⟨hwc, habove⟩ := hw.at? hclosed
    have hfind := find_closed hclosed (fun m hm => isPlain_of_isName (habove m hm))
      (isPlain_of_isName (hwc.2 n hn))
    obtain ⟨-, t, ht, -⟩ := find_of_isFile hfile
    rw [← List.append_assoc, hfind] at ht
    cases ht

theorem mem_filesBelow (ignored : String → Bool) (files : FileTree) (root : Place)
    (hw : files.WellFormed) (entries : List (String × FileTree))
    (hd : files.at? root = some (.directory entries)) (place : Place) :
    place ∈ filesBelow ignored files root ↔
      ∃ dirs name s, place = dirs ++ [name] ∧ files.at? (root ++ place) = some s ∧
        s.isDirectory = false ∧ leadsToFile files root place = .ok true ∧
        ignored (pathText place) = false ∧
        ∀ above, above <+: dirs → above ≠ [] → ignored (pathText above ++ "/") = false := by
  have hlast (dirs : Place) (name : String) : dirs ≠ dirs ++ [name] := by simp
  rw [filesBelow, List.mem_filter, mem_met ignored files root hw entries hd]
  constructor
  · intro h
    obtain ⟨⟨hs, ho⟩, hc⟩ := h
    obtain ⟨hfile, hkept⟩ := Bool.and_eq_true_iff.mp hc
    replace hfile := toOption_eq_some.mp (of_decide_eq_true hfile)
    obtain ⟨s, hat, hdir⟩ := at?_of_stands hw hd hs hfile
    have hne : place ≠ [] := by
      rintro rfl
      cases (stands_nil _).mp hs
    obtain ⟨dirs, name, rfl⟩ := (List.eq_nil_or_concat place).resolve_left hne
    rw [List.concat_eq_append] at *
    refine ⟨dirs, name, s, rfl, hat, hdir, hfile, by simpa using hkept, fun above hp hne => ?_⟩
    have hbelow : above ≠ dirs ++ [name] := by
      rintro rfl
      have hlen := hp.length_le
      rw [List.length_append, List.length_singleton] at hlen
      omega
    exact (ho above (hp.trans (List.prefix_append dirs [name])) hbelow hne).1
  · intro h
    obtain ⟨dirs, name, s, rfl, hat, hdir, hfile, hkept, ho⟩ := h
    have hlong := (find_of_isFile hfile).1
    rw [at?_append, hd, Option.bind_some] at hat
    refine ⟨⟨.inl ⟨s, hat, hdir⟩, fun above hp hne hnil => ?_⟩,
      by simp [hfile, hkept, Except.toOption]⟩
    have hdirs := (List.prefix_concat_iff.mp hp).resolve_left hne
    exact ⟨ho above hdirs hnil,
      tooLong_of_prefix ((List.prefix_append_right_inj root).mpr hp) hlong⟩

/-- What counts below a directory are the files that are asked for. -/
theorem mem_sources (scope : Scope) (files : FileTree) (root : Place) (hw : files.WellFormed)
    (entries : List (String × FileTree)) (hd : files.at? root = some (.directory entries))
    (place : Place) :
    place ∈ sources scope files root ↔
      ∃ dirs name, place = dirs ++ [name] ∧ Listed files root scope dirs name := by
  rw [sources, List.mem_filter, mem_filesBelow _ files root hw entries hd]
  constructor
  · intro h
    obtain ⟨⟨dirs, name, s, rfl, hs, hdir, hfile, hkept, ho⟩, hc⟩ := h
    obtain ⟨hsource, honly⟩ := Bool.and_eq_true_iff.mp hc
    have hnames := (hw.at? hs).2
    have hbelow : ∀ n ∈ dirs ++ [name], Path.IsName n :=
      fun n hn => hnames n (List.mem_append_right _ hn)
    rw [isSource, extension_eq _ hbelow, List.contains_iff_mem] at hsource
    refine ⟨dirs, name, rfl, ?_, ⟨s, hs, hdir⟩, hfile, hkept, hsource, ?_⟩
    · intro above hp hne
      obtain ⟨between, rfl⟩ := hp
      have hup : files.at? ((root ++ above) ++ (between ++ [name])) = some s := by simpa using hs
      exact ⟨at?_above hup (by simp), ho above (List.prefix_append above between) hne⟩
    · intro only ho
      simpa [ho] using honly
  · intro h
    obtain ⟨dirs, name, rfl, h⟩ := h
    obtain ⟨s, hs, hdir⟩ := h.isEntry
    have hbelow : ∀ n ∈ dirs ++ [name], Path.IsName n :=
      fun n hn => (hw.at? hs).2 n (List.mem_append_right _ hn)
    refine ⟨⟨dirs, name, s, rfl, hs, hdir, h.isFile, h.notIgnored,
      fun above hp hne => (h.entered above hp hne).2⟩, ?_⟩
    apply Bool.and_eq_true_iff.mpr
    constructor
    · rw [isSource, extension_eq _ hbelow, List.contains_iff_mem]
      exact h.isSource
    · cases ho : scope.only with
      | none => rfl
      | some only => exact h.included only ho

theorem isName_of_mem_sources (scope : Scope) (files : FileTree) (root : Place)
    (hw : files.WellFormed) (entries : List (String × FileTree))
    (hd : files.at? root = some (.directory entries)) (place : Place)
    (hp : place ∈ sources scope files root) : ∀ n ∈ place, Path.IsName n := by
  obtain ⟨dirs, name, rfl, h⟩ := (mem_sources scope files root hw entries hd place).mp hp
  obtain ⟨s, hs, -⟩ := h.isEntry
  exact fun n hn => (hw.at? hs).2 n (List.mem_append_right _ hn)

end CodeAudit.Inventory
namespace CodeAudit

theorem Pattern.faulting_eq_ok {α : Type} {wording : Wording} {lines : List String}
    {x : Except Pattern.Refusal α} {a : α} : faulting wording lines x = .ok a ↔ x = .ok a := by
  cases x with
  | error r => simp [faulting]
  | ok b => simp [faulting]

/-- The patterns of a directory form a filter if its project's lines are found and all lines
together form one. -/
theorem IgnoreFilter.ofDirectory_eq_ok {wording : Wording} {files : FileTree} {directory : Place}
    {exclude : List String} {f : IgnoreFilter} :
    ofDirectory wording files directory exclude = .ok f ↔
      ∃ project, projectLines files directory = .ok project ∧
        ofLines (builtinLines ++ exclude ++ project ++ ownLines files directory) = .ok f := by
  constructor
  · intro h
    obtain ⟨lines, hlines, hf⟩ := bind_eq_ok.mp h
    obtain ⟨project, hproject, hall⟩ := bind_eq_ok.mp hlines
    cases hall
    exact ⟨project, hproject, Pattern.faulting_eq_ok.mp hf⟩
  · intro h
    obtain ⟨project, hproject, hf⟩ := h
    exact bind_eq_ok.mpr ⟨_, bind_eq_ok.mpr ⟨project, hproject, rfl⟩, Pattern.faulting_eq_ok.mpr hf⟩

end CodeAudit
namespace CodeAudit.Host
open FileTree Inventory

theorem scannable_ok {h : Host} {files : FileTree} {p : Path} {place : Place}
    (hs : h.scannable files p = .ok place) :
    ∃ entries, files.at? place = some (.directory entries) := by
  rw [scannable] at hs
  obtain ⟨q, -, hs⟩ := bind_eq_ok.mp hs
  cases hp : files.settle (h.place q) with
  | error e => simp [hp] at hs
  | ok there =>
    simp only [hp] at hs
    split at hs
    · next entries hd =>
      obtain rfl : there = place := Except.ok.inj hs
      exact ⟨entries, hd⟩
    · simp at hs

/-- A scan comes to an answer where its directory is found, its patterns form filters, and nothing
stops the walk. -/
theorem scan_eq_ok {h : Host} {files : FileTree} {p : Path} {exclude only : List String}
    {i : Inventory} :
    h.scan files p exclude only = .ok i ↔
      ∃ root ignore wanted, h.scannable files p = .ok root ∧
        IgnoreFilter.ofDirectory h.wording files root exclude = .ok ignore ∧
        IncludeFilter.ofLines? only = .ok wanted ∧ trouble? ignore.ignores files root = none ∧
        i = .ofScope ⟨ignore, wanted⟩ files root := by
  constructor
  · intro hs
    obtain ⟨root, hroot, hs⟩ := bind_eq_ok.mp hs
    obtain ⟨ignore, hignore, hs⟩ := bind_eq_ok.mp hs
    obtain ⟨wanted, honly, hs⟩ := bind_eq_ok.mp hs
    cases hwalk : trouble? ignore.ignores files root with
    | some f =>
      rw [hwalk] at hs
      cases hs
    | none =>
      rw [hwalk] at hs
      cases hs
      exact ⟨root, ignore, wanted, hroot, hignore, Pattern.faulting_eq_ok.mp honly, hwalk, rfl⟩
  · intro hs
    obtain ⟨root, ignore, wanted, hroot, hignore, honly, hwalk, rfl⟩ := hs
    refine bind_eq_ok.mpr ⟨root, hroot, bind_eq_ok.mpr ⟨ignore, hignore, ?_⟩⟩
    refine bind_eq_ok.mpr ⟨wanted, Pattern.faulting_eq_ok.mpr honly, ?_⟩
    rw [hwalk]
    rfl

theorem scannable_of_scan {h : Host} {files : FileTree} {p : Path} {exclude only : List String}
    {i : Inventory} (hs : h.scan files p exclude only = .ok i) :
    h.scannable files p = .ok i.root.names := by
  obtain ⟨root, ignore, wanted, hroot, -, -, -, rfl⟩ := scan_eq_ok.mp hs
  exact hroot

/-- What is known of the scan of a directory that comes to an answer. -/
theorem scan_ok {h : Host} {files : FileTree} {p : Path} {exclude only : List String}
    {i : Inventory} (hs : h.scan files p exclude only = .ok i) :
    (∃ entries, files.at? i.root.names = some (.directory entries)) ∧
      IgnoreFilter.ofDirectory h.wording files i.root.names exclude = .ok i.scope.ignore ∧
      IncludeFilter.ofLines? only = .ok i.scope.only ∧
      i = .ofScope i.scope files i.root.names ∧
      trouble? i.scope.ignore.ignores files i.root.names = none := by
  obtain ⟨root, ignore, wanted, hroot, hignore, honly, hwalk, rfl⟩ := scan_eq_ok.mp hs
  exact ⟨scannable_ok hroot, hignore, honly, rfl, hwalk⟩

/-- Where the patterns of a directory form a filter and nothing stops the walk, the directory can be
scanned as a whole. -/
theorem scan_of_filter {h : Host} {files : FileTree} {p : Path} {exclude : List String}
    {root : Place} {f : IgnoreFilter} (hroot : h.scannable files p = .ok root)
    (hf : IgnoreFilter.ofDirectory h.wording files root exclude = .ok f)
    (hwalk : trouble? f.ignores files root = none) :
    h.scan files p exclude [] = .ok (.ofScope ⟨f, none⟩ files root) :=
  scan_eq_ok.mpr ⟨root, f, none, hroot, hf, rfl, hwalk, rfl⟩

/-- The scanned paths are those of the files that count. -/
theorem mem_files {h : Host} {files : FileTree} {p : Path} {exclude only : List String}
    {i : Inventory} (hs : h.scan files p exclude only = .ok i) (path : String) :
    path ∈ i.files ↔ ∃ place ∈ sources i.scope files i.root.names, pathText place = path := by
  rw [(scan_ok hs).2.2.2.1, ofScope, Registry.mem_sortedDistinct, List.mem_map]

theorem mem_extensions {h : Host} {files : FileTree} {p : Path} {exclude only : List String}
    {i : Inventory} (hs : h.scan files p exclude only = .ok i) (e : String) :
    e ∈ i.extensions ↔ ∃ place ∈ sources i.scope files i.root.names, extension place = e := by
  rw [(scan_ok hs).2.2.2.1, ofScope, Registry.mem_sortedDistinct, List.mem_map]

/-- A scan lists the files that are asked for and no others, in order and each once, with the
endings that they have. -/
theorem scan_lists (h : Host) (files : FileTree) (hw : files.WellFormed) (p : Path)
    (exclude only : List String) (i : Inventory) (hs : h.scan files p exclude only = .ok i) :
    IgnoreFilter.ofDirectory h.wording files i.root.names exclude = .ok i.scope.ignore ∧
    IncludeFilter.ofLines? only = .ok i.scope.only ∧
    (∀ path ∈ i.files, ∃ dirs name, (∀ n ∈ dirs ++ [name], Path.IsName n) ∧
      path = pathText (dirs ++ [name])) ∧
    (∀ dirs name, (∀ n ∈ dirs ++ [name], Path.IsName n) →
      (pathText (dirs ++ [name]) ∈ i.files ↔ Listed files i.root.names i.scope dirs name)) ∧
    i.files.Pairwise (fun a b => Text.Precedes a.toList b.toList) ∧
    i.extensions.Nodup ∧
    ∀ e, e ∈ i.extensions ↔ ∃ path ∈ i.files, e = Text.lower (Path.ofText path).suffix := by
  obtain ⟨⟨entries, hd⟩, hignore, honly, hi, -⟩ := scan_ok hs
  have hname := isName_of_mem_sources i.scope files i.root.names hw entries hd
  have hlisted := mem_sources i.scope files i.root.names hw entries hd
  refine ⟨hignore, honly, ?_, ?_, ?_, ?_, ?_⟩
  · intro path hp
    obtain ⟨place, hplace, rfl⟩ := (mem_files hs path).mp hp
    obtain ⟨dirs, name, rfl, -⟩ := (hlisted place).mp hplace
    exact ⟨dirs, name, hname _ hplace, rfl⟩
  · intro dirs name hn
    rw [mem_files hs]
    constructor
    · intro h
      obtain ⟨place, hplace, he⟩ := h
      have hsame : dirs ++ [name] = place := pathText_injective hn (hname _ hplace) he.symm
      obtain ⟨dirs', name', rfl, hl⟩ := (hlisted place).mp hplace
      obtain ⟨rfl, hlast⟩ := List.append_inj' hsame rfl
      obtain rfl := (List.cons.inj hlast).1
      exact hl
    · intro hl
      exact ⟨dirs ++ [name], (hlisted _).mpr ⟨dirs, name, rfl, hl⟩, rfl⟩
  · rw [hi]
    exact Registry.sortedDistinct_increasing _
  · rw [hi]
    exact Registry.sortedDistinct_nodup _
  · intro e
    rw [mem_extensions hs]
    constructor
    · intro h
      obtain ⟨place, hplace, rfl⟩ := h
      exact ⟨pathText place, (mem_files hs _).mpr ⟨place, hplace, rfl⟩,
        extension_eq place (hname _ hplace)⟩
    · intro h
      obtain ⟨path, hp, rfl⟩ := h
      obtain ⟨place, hplace, rfl⟩ := (mem_files hs path).mp hp
      exact ⟨place, hplace, extension_eq place (hname _ hplace)⟩

/-- A directory with a build output that its ignore file asks for, and links to a file and to a
directory. -/
def sampleTree : FileTree :=
  .directory [("repo", .directory [
    ("app.py", .file [] false),
    ("dist", .directory [("keep.py", .file [] false)]),
    ("src", .directory [("b.TS", .file [] false), ("notes.txt", .file [] false)]),
    ("link.py", .link "src/../app.py"),
    ("alias", .link "src"),
    (".gitignore", .file "!dist/keep.py\n".toUTF8.data.toList false)])]

def sampleHost : Host where
  home := ⟨.root, ["home"]⟩
  workingDir := ⟨.root, []⟩
  temporary := ⟨.root, ["tmp"]⟩
  bundled := ⟨.root, ["bundled"]⟩
  date := .ofSeconds 0

def sampleRoot : Path := ⟨.root, ["repo"]⟩

theorem sampleTree_wellFormed : sampleTree.WellFormed := by decide

theorem sample_scannable : sampleHost.scannable sampleTree sampleRoot = .ok sampleRoot.names := rfl

/-- The files that count in the sample, and what its patterns decide about its build output. -/
theorem sample_filter :
    ∃ f always, IgnoreFilter.ofDirectory sampleHost.wording sampleTree sampleRoot.names [] = .ok f ∧
      IgnoreFilter.ofLines IgnoreFilter.builtinLines = .ok always ∧
      (sources ⟨f, none⟩ sampleTree sampleRoot.names).map pathText =
        ["app.py", "link.py", "src/b.TS"] ∧
      trouble? f.ignores sampleTree sampleRoot.names = none ∧
      f.ignores "dist/" = true ∧ f.ignores "dist/keep.py" = false ∧
      always.ignores "dist/keep.py" = true := by
  have hread : (IgnoreFilter.ofDirectory sampleHost.wording sampleTree sampleRoot.names
      []).toOption.map (fun f => ((sources ⟨f, none⟩ sampleTree sampleRoot.names).map pathText,
        (trouble? f.ignores sampleTree sampleRoot.names).isNone, f.ignores "dist/",
        f.ignores "dist/keep.py")) =
          some (["app.py", "link.py", "src/b.TS"], true, true, false) ∧
      (IgnoreFilter.ofLines IgnoreFilter.builtinLines).toOption.map (·.ignores "dist/keep.py") =
        some true := by
    decide +kernel
  obtain ⟨⟨f, ho, hf⟩, always, halways, hclosed⟩ :=
    hread.imp Option.map_eq_some_iff.mp Option.map_eq_some_iff.mp
  obtain ⟨hsources, hf⟩ := Prod.mk.inj hf
  obtain ⟨hwalk, hf⟩ := Prod.mk.inj hf
  obtain ⟨hpruned, hopen⟩ := Prod.mk.inj hf
  exact ⟨f, always, toOption_eq_some.mp ho, toOption_eq_some.mp halways, hsources,
    Option.isNone_iff_eq_none.mp hwalk, hpruned, hopen, hclosed⟩

theorem sample_scan :
    ∃ i, sampleHost.scan sampleTree sampleRoot [] [] = .ok i ∧ i.root = sampleRoot ∧
      ∀ path, path ∈ i.files ↔ path ∈ ["app.py", "link.py", "src/b.TS"] := by
  obtain ⟨f, -, hf, -, hsources, hwalk, -⟩ := sample_filter
  have hs := scan_of_filter sample_scannable hf hwalk
  refine ⟨_, hs, rfl, fun path => ?_⟩
  rw [← hsources, mem_files hs, List.mem_map]
  rfl

theorem scan_lists_sample :
    ∃ i, sampleTree.WellFormed ∧ sampleHost.scan sampleTree sampleRoot [] [] = .ok i ∧
      Listed sampleTree sampleRoot.names i.scope ["src"] "b.TS" ∧
      ¬ Listed sampleTree sampleRoot.names i.scope ["dist"] "keep.py" ∧
      ¬ Listed sampleTree sampleRoot.names i.scope ["alias"] "b.TS" := by
  obtain ⟨i, hs, hr, hf⟩ := sample_scan
  obtain ⟨-, -, -, h, -⟩ :=
    scan_lists sampleHost sampleTree sampleTree_wellFormed sampleRoot [] [] i hs
  simp only [hf, hr] at h
  refine ⟨i, sampleTree_wellFormed, hs, ?_, ?_, ?_⟩
  · exact (h ["src"] "b.TS" (by decide)).mp (by decide)
  · exact fun hl => absurd ((h ["dist"] "keep.py" (by decide)).mpr hl)
      (by decide)
  · exact fun hl => absurd ((h ["alias"] "b.TS" (by decide)).mpr hl)
      (by decide)

end CodeAudit.Host
