import CodeAudit.Proofs.Path.Relative
import CodeAudit.Proofs.Pattern.Named
import CodeAudit.Proofs.Scan.Layers
namespace CodeAudit.IgnoreFilter
open Pattern

/-- The files that a directory's own patterns are read from. -/
def ownFiles : List String := projectFiles ++ [".fcvignore"]

private theorem builtin_shapes :
    (Pattern.ofLines (clean builtinLines)).toOption.any fun patterns =>
      (patterns.all fun p => !p.negated &&
        (p.shape.descends || builtinFiles.any fun l => p.shape = .named l)) &&
      builtinFiles.all fun l => patterns.any fun p => p.shape = .named l := by
  decide +kernel

/-- What always holds is well written. -/
theorem builtin_ok : ∃ f, ofLines builtinLines = .ok f := by
  have hshapes := builtin_shapes
  cases hpatterns : Pattern.ofLines (clean builtinLines) with
  | error e =>
    rw [hpatterns] at hshapes
    cases hshapes
  | ok patterns =>
    rw [ofLines, hpatterns]
    exact ⟨_, rfl⟩

/-- What always holds looks for what lies below certain directories, and for certain names. -/
theorem builtin_patterns {f : IgnoreFilter} (hf : ofLines builtinLines = .ok f) :
    (∀ p ∈ f.patterns, p.negated = false) ∧
      (∀ p ∈ f.patterns, p.shape.descends = true ∨ ∃ l ∈ builtinFiles, p.shape = .named l) ∧
      ∀ l ∈ builtinFiles, ∃ p ∈ f.patterns, p.shape = .named l := by
  have hshapes := builtin_shapes
  rw [ofLines_patterns hf, Except.toOption, Option.any_some] at hshapes
  simp only [Bool.and_eq_true, List.all_eq_true, List.any_eq_true, Bool.or_eq_true,
    Bool.not_eq_true', decide_eq_true_eq] at hshapes
  obtain ⟨hall, hnames⟩ := hshapes
  exact ⟨fun p hp => (hall p hp).1, fun p hp => (hall p hp).2, hnames⟩

theorem subject_of_name {cs : List Char} (hcs : '/' ∉ cs) : subject cs = cs := by
  unfold subject
  split
  · exact absurd List.mem_cons_self hcs
  · exact absurd (List.mem_cons_of_mem _ List.mem_cons_self) hcs
  · rfl

/-- A name by itself is below the directory, unless it is empty. -/
theorem outside_of_name {name : String} (hslash : '/' ∉ name.toList)
    (hback : '\\' ∉ name.toList) : outside name = decide (name = "") := by
  have hprefix : ['.', '.', '/'].isPrefixOf name.toList = false := by
    rw [Bool.eq_false_iff]
    intro h
    exact hslash ((List.isPrefixOf_iff_prefix.mp h).subset (by simp))
  rw [outside, turned, Path.map_turn_eq_self hback, hprefix, Bool.or_false, Bool.eq_iff_iff]
  simp

/-- By what always holds, a name by itself is left out exactly if it is one of the files with the
versions of what a project depends on, or such a name with a line end. -/
theorem builtin_ignores_iff {f : IgnoreFilter} (hf : ofLines builtinLines = .ok f) {name : String}
    (hslash : '/' ∉ name.toList) (hback : '\\' ∉ name.toList) :
    f.ignores name = true ↔
      ∃ l ∈ builtinFiles, name.toList = l.toList ∨ name.toList = l.toList ++ ['\n'] := by
  obtain ⟨hpositive, hshapes, hnames⟩ := builtin_patterns hf
  rw [ignores_iff, outside_of_name hslash hback, turned, Path.map_turn_eq_self hback,
    subject_of_name hslash, verdict_of_positive hpositive]
  constructor
  · intro h
    obtain ⟨-, p, hp, hhit⟩ := h
    rcases hshapes p hp with hdescends | ⟨l, hl, hnamed⟩
    · rw [Shape.hit?_of_descends hdescends hslash] at hhit
      cases hhit
    · rw [hnamed] at hhit
      exact ⟨l, hl, (Shape.named_hit_iff l hslash).mp hhit⟩
  · intro h
    obtain ⟨l, hl, hname⟩ := h
    obtain ⟨p, hp, hnamed⟩ := hnames l hl
    have hnonempty : ∀ l ∈ builtinFiles, l.toList ≠ [] := by simp [builtinFiles]
    refine ⟨?_, p, hp, ?_⟩
    · rw [decide_eq_false_iff_not]
      rintro rfl
      rcases hname with hname | hname
      · exact hnonempty l hl hname.symm
      · simp at hname
    · rw [hnamed]
      exact (Shape.named_hit_iff l hslash).mpr hname

/-- As `builtin_ignores_iff`, of a name without a line end. -/
theorem builtin_ignores_name_iff {f : IgnoreFilter} (hf : ofLines builtinLines = .ok f)
    {name : String} (hslash : '/' ∉ name.toList) (hback : '\\' ∉ name.toList)
    (hend : name.toList.getLast? ≠ some '\n') :
    f.ignores name = true ↔ name ∈ builtinFiles := by
  rw [builtin_ignores_iff hf hslash hback]
  constructor
  · intro h
    obtain ⟨l, hl, hname | hname⟩ := h
    · exact String.toList_injective hname ▸ hl
    · exact absurd (by simp [hname]) hend
  · intro h
    exact ⟨name, h, .inl rfl⟩

variable {files : FileTree} {directory : Place} {entries : List (String × FileTree)}

theorem isPlain_of_mem_ownFiles {n : String} (hn : n ∈ ownFiles) : FileTree.IsPlain n := by
  have hnames : ∀ n ∈ ownFiles, Path.IsName n := by decide
  exact FileTree.isPlain_of_isName (hnames n hn)

theorem fileLines_missing (hd : files.at? directory = some (.directory entries))
    (hplain : ∀ n ∈ directory, FileTree.IsPlain n) {n : String} (hn : n ∈ ownFiles)
    (hm : files.at? (directory ++ [n]) = none) : fileLines files (directory ++ [n]) = [] := by
  rw [fileLines, FileTree.read, FileTree.find_missing hd hplain (isPlain_of_mem_ownFiles hn) hm]

/-- Files that are not there have no lines. -/
theorem firstLines_missing (hd : files.at? directory = some (.directory entries))
    (hplain : ∀ n ∈ directory, FileTree.IsPlain n) {names lines : List String}
    (hnames : ∀ n ∈ names, n ∈ ownFiles ∧ files.at? (directory ++ [n]) = none)
    (h : firstLines files directory names = .ok lines) : lines = [] := by
  induction names with
  | nil => exact (Except.ok.inj h).symm
  | cons n rest ih =>
    obtain ⟨⟨hn, hm⟩, hrest⟩ := List.forall_mem_cons.mp hnames
    obtain ⟨b, hb, h⟩ := bind_eq_ok.mp h
    have hfind := FileTree.find_missing hd hplain (isPlain_of_mem_ownFiles hn) hm
    obtain rfl := FileTree.isFile_of_error hfind hb
    exact ih hrest h

/-- Files that are not there can be asked for where their paths are not too long. -/
theorem firstLines_of_short (hd : files.at? directory = some (.directory entries))
    (hplain : ∀ n ∈ directory, FileTree.IsPlain n) {names : List String}
    (hnames : ∀ n ∈ names, n ∈ ownFiles ∧ files.at? (directory ++ [n]) = none)
    (hshort : ∀ n ∈ names, FileTree.tooLong ⟨.root, directory ++ [n]⟩ = false) :
    firstLines files directory names = .ok [] := by
  have hsizes : ∀ n ∈ ownFiles, (FileTree.missing n).isAbsence = true := by decide
  induction names with
  | nil => rfl
  | cons n rest ih =>
    obtain ⟨⟨hn, hm⟩, hrest⟩ := List.forall_mem_cons.mp hnames
    obtain ⟨hown, hshort⟩ := List.forall_mem_cons.mp hshort
    have hfind := FileTree.find_missing hd hplain (isPlain_of_mem_ownFiles hn) hm
    exact bind_eq_ok.mpr ⟨false, FileTree.isFile_absent hown hfind (hsizes n hn), ih hrest hshort⟩

/-- In a directory without patterns of its own, only what always holds is left out. -/
theorem ofDirectory_of_no_files {wording : Wording} {f : IgnoreFilter}
    (hd : files.at? directory = some (.directory entries))
    (hplain : ∀ n ∈ directory, FileTree.IsPlain n)
    (hm : ∀ n ∈ ownFiles, files.at? (directory ++ [n]) = none) :
    ofDirectory wording files directory [] = .ok f ↔
      (∃ project, projectLines files directory = .ok project) ∧ ofLines builtinLines = .ok f := by
  have hproject {project : List String} (h : projectLines files directory = .ok project) :
      project = [] :=
    firstLines_missing hd hplain
      (fun n hn => ⟨List.mem_append_left _ hn, hm n (List.mem_append_left _ hn)⟩) h
  have hown : ownLines files directory = [] :=
    fileLines_missing hd hplain (by decide) (hm _ (List.mem_append_right _ List.mem_cons_self))
  rw [ofDirectory_eq_ok, hown]
  constructor
  · intro h
    obtain ⟨project, hp, hf⟩ := h
    obtain rfl := hproject hp
    exact ⟨⟨[], hp⟩, by simpa using hf⟩
  · intro h
    obtain ⟨⟨project, hp⟩, hf⟩ := h
    obtain rfl := hproject hp
    exact ⟨[], hp, by simpa using hf⟩

end CodeAudit.IgnoreFilter
namespace CodeAudit.Inventory

section
variable {entries : List (String × FileTree)}
  (hleaf : ∀ e ∈ entries, ∃ content executable, e.2 = .file content executable)

include hleaf in
theorem metIn_of_leaves (enters : Place → Bool) (names : Place) :
    metIn enters names entries = (entries.map fun e => names ++ [e.1], []) := by
  induction entries with
  | nil => rfl
  | cons e rest ih =>
    obtain ⟨⟨content, executable, he⟩, hrest⟩ := List.forall_mem_cons.mp hleaf
    obtain ⟨n, t⟩ := e
    obtain rfl : t = .file content executable := he
    rw [metIn, ih hrest]
    rfl

include hleaf in
/-- Where there are files and nothing else, a walk meets them. -/
theorem met_of_leaves (ignored : String → Bool) {files : FileTree} {root : Place}
    (hd : files.at? root = some (.directory entries)) :
    met ignored files root = entries.map fun e => [e.1] := by
  rw [met, hd, Option.map_some, Option.getD_some, metAt, metIn_of_leaves hleaf]
  simp

end

variable {files : FileTree} {root : Place} {entries : List (String × FileTree)}

/-- Files in a directory whose paths are not too long are told to be files. -/
theorem leadsToFile_of_leaf (hw : files.WellFormed)
    (hd : files.at? root = some (.directory entries))
    (hleaf : ∀ e ∈ entries, ∃ content executable, e.2 = .file content executable)
    (hshort : ∀ e ∈ entries, FileTree.tooLong ⟨.root, root ++ [e.1]⟩ = false) :
    ∀ e ∈ entries, leadsToFile files root [e.1] = .ok true := by
  intro e he
  obtain ⟨content, executable, hfile⟩ := hleaf e he
  have hwd := (hw.at? hd).1
  rw [FileTree.WellFormed] at hwd
  have hat : files.at? (root ++ [e.1]) = some (.file content executable) := by
    rw [FileTree.at?_append, hd, Option.bind_some, FileTree.at?_directory,
      (FileTree.lookup_iff_mem hwd.1 e.1 e.2).mpr he, hfile]
    rfl
  have hplain : ∀ n ∈ root ++ [e.1], FileTree.IsPlain n :=
    fun n hn => FileTree.isPlain_of_isName ((hw.at? hat).2 n hn)
  exact FileTree.isFile_file (hshort e he) (FileTree.find_at? hat (by simp) hplain)

theorem trouble?_eq_none_iff {ignored : String → Bool} {files : FileTree}
    {root : Place} :
    trouble? ignored files root = none ↔
      ∀ names ∈ met ignored files root, ∃ b, leadsToFile files root names = .ok b := by
  rw [trouble?, List.findSome?_eq_none_iff]
  refine forall₂_congr fun names _ => ?_
  cases leadsToFile files root names <;> simp [Fault.of?]

end CodeAudit.Inventory
namespace CodeAudit.Host
open Inventory
variable {h : Host} {files : FileTree} {p : Path} {i : Inventory}

/-- In a directory without patterns of its own that is scanned as a whole, all counts but what is
always left out. -/
theorem covers_eq_of_no_files (hw : files.WellFormed) (hs : h.scan files p [] [] = .ok i)
    (hown : ∀ n ∈ IgnoreFilter.ownFiles, files.at? (i.root.names ++ [n]) = none) :
    IgnoreFilter.ofLines IgnoreFilter.builtinLines = .ok i.scope.ignore ∧
      ∀ path, i.scope.covers path = !i.scope.ignore.ignores path := by
  obtain ⟨⟨entries, hd⟩, hignore, honly, -, -⟩ := scan_ok hs
  have hplain : ∀ n ∈ i.root.names, FileTree.IsPlain n :=
    fun n hn => FileTree.isPlain_of_isName ((hw.at? hd).2 n hn)
  obtain ⟨-, hignore⟩ := (IgnoreFilter.ofDirectory_of_no_files hd hplain hown).mp hignore
  have hnone : i.scope.only = none := (Except.ok.inj honly).symm
  refine ⟨hignore, fun path => ?_⟩
  rw [Scope.covers, hnone]
  exact Bool.and_true _

/-- A directory that holds files with short enough paths and nothing else, without patterns of its
own, is scanned for all its source files but those with the versions of what a project depends
on. -/
theorem scan_of_leaves {root : Place} {entries : List (String × FileTree)} (hw : files.WellFormed)
    (hroot : h.scannable files p = .ok root) (hd : files.at? root = some (.directory entries))
    (hown : ∀ n ∈ IgnoreFilter.ownFiles, n ∉ entries.map Prod.fst)
    (hleaf : ∀ e ∈ entries, ∃ content executable, e.2 = .file content executable)
    (hplain : ∀ e ∈ entries, '\\' ∉ e.1.toList ∧ e.1.toList.getLast? ≠ some '\n')
    (hshort : ∀ n ∈ IgnoreFilter.projectFiles ++ entries.map Prod.fst,
      FileTree.tooLong ⟨.root, root ++ [n]⟩ = false) :
    ∃ i, h.scan files p [] [] = .ok i ∧ i.root = ⟨.root, root⟩ ∧
      sources i.scope files root = (entries.map fun e => [e.1]).filter fun names =>
        isSource names && !IgnoreFilter.builtinFiles.contains (pathText names) := by
  have hmissing : ∀ n ∈ IgnoreFilter.ownFiles, files.at? (root ++ [n]) = none := by
    intro n hn
    have hnone : entries.lookup n = none := by
      rw [Option.eq_none_iff_forall_ne_some]
      intro t ht
      exact hown n hn (List.mem_map_of_mem (FileTree.mem_of_lookup ht))
    rw [FileTree.at?_append, hd, Option.bind_some, FileTree.at?_directory, hnone, Option.bind_none]
  have hnames : ∀ n ∈ root, FileTree.IsPlain n :=
    fun n hn => FileTree.isPlain_of_isName ((hw.at? hd).2 n hn)
  have hproject : IgnoreFilter.projectLines files root = .ok [] :=
    IgnoreFilter.firstLines_of_short hd hnames
      (fun n hn => ⟨List.mem_append_left _ hn, hmissing n (List.mem_append_left _ hn)⟩)
      fun n hn => hshort n (List.mem_append_left _ hn)
  have hfile := leadsToFile_of_leaf hw hd hleaf fun e he =>
    hshort e.1 (List.mem_append_right _ (List.mem_map_of_mem he))
  obtain ⟨f, hf⟩ := IgnoreFilter.builtin_ok
  have hignore : IgnoreFilter.ofDirectory h.wording files root [] = .ok f :=
    (IgnoreFilter.ofDirectory_of_no_files hd hnames hmissing).mpr ⟨⟨[], hproject⟩, hf⟩
  have hmet := met_of_leaves hleaf f.ignores hd
  have hwalk : trouble? f.ignores files root = none := by
    rw [trouble?_eq_none_iff, hmet]
    intro names hn
    obtain ⟨e, he, rfl⟩ := List.mem_map.mp hn
    exact ⟨true, hfile e he⟩
  refine ⟨_, scan_of_filter hroot hignore hwalk, rfl, ?_⟩
  show sources ⟨f, none⟩ files root = _
  rw [sources, filesBelow, hmet, List.filter_filter]
  refine List.filter_congr fun names hmem => ?_
  obtain ⟨⟨n, t⟩, he, rfl⟩ := List.mem_map.mp hmem
  have hwd := (hw.at? hd).1
  rw [FileTree.WellFormed, FileTree.wellFormedEntries_iff] at hwd
  obtain ⟨hback, hend⟩ := hplain _ he
  have hpath : pathText [n] = n := String.intercalate_singleton
  have hkept : f.ignores n = IgnoreFilter.builtinFiles.contains n := by
    rw [Bool.eq_iff_iff, List.contains_iff_mem]
    exact IgnoreFilter.builtin_ignores_name_iff hf (hwd.2 n t he).1.2.2.2 hback hend
  rw [hfile _ he, hpath, hkept]
  simp [Except.toOption]

end CodeAudit.Host
