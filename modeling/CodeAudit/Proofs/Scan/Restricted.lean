import CodeAudit.Proofs.Path.Relative
import CodeAudit.Proofs.Pattern.Itself
import CodeAudit.Proofs.Scan.Builtin
import CodeAudit.Proofs.Scan.Exclude
namespace CodeAudit

namespace Pattern

/-- Patterns that are all negated pick out nothing. -/
theorem lastVerdict_of_negated {patterns : List Pattern} (h : ∀ p ∈ patterns, p.negated = true)
    (cs : List Char) : lastVerdict patterns cs = false := by
  unfold lastVerdict
  split
  · next p hp => rw [h p (List.mem_reverse.mp (List.mem_of_find?_eq_some hp))]; rfl
  · rfl

theorem lastVerdict_singleton {shape : Shape} {cs : List Char} (h : (shape.hit? cs).isSome) :
    lastVerdict [⟨false, shape⟩] cs = true := by
  simp [lastVerdict, h]

section
variable {names : List String} (hn : ∀ n ∈ names, Path.IsName n)
include hn

/-- The pieces of a text that holds names are these names. -/
theorem splitAt_names (hne : names ≠ []) :
    Text.splitAt '/' ("/".intercalate names).toList = names.map String.toList := by
  rw [Path.toList_intercalate_slash]
  apply Text.splitAt_intercalate
  · simpa using hne
  · intro piece hp
    obtain ⟨n, hmem, rfl⟩ := List.mem_map.mp hp
    exact (hn n hmem).2.2.2

/-- Names are matched by their text as it stands. -/
theorem subject_of_names (hne : names ≠ []) :
    subject ("/".intercalate names).toList = ("/".intercalate names).toList := by
  have hsplit := splitAt_names hn hne
  unfold subject
  split
  · next rest hcs =>
    exact absurd (congrArg List.head? hcs) (Path.head_intercalate_ne_slash names hn)
  · next rest hcs =>
    have hdot : ['.'] ∈ names.map String.toList := by
      rw [← hsplit, hcs]
      simp [Text.splitAt]
    obtain ⟨n, hmem, hdot⟩ := List.mem_map.mp hdot
    exact absurd (String.toList_inj.mp hdot) (hn n hmem).2.1
  · rfl

end

theorem clean_singleton {line : String} (h : Text.strip line = line) :
    clean [line] = if line ≠ "" ∧ line.toList.head? ≠ some '#' then [line] else [] := by
  simp [clean, h, List.filter_cons]

end Pattern

namespace IncludeFilter
open Pattern

theorem isLiteral_of_bang {line : String} (h : line.toList.head? = some '!') :
    isLiteral line = false := by
  rw [isLiteral, Bool.not_eq_false', List.any_eq_true]
  exact ⟨'!', List.mem_of_mem_head? h, by decide⟩

/-- A path with no white space at its ends in which nothing is escaped and no brackets are opened,
taken as the only line of a filter: a comment holds no pattern, and any other line holds one that
matches the path, which is negated if it begins with an exclamation mark. -/
theorem ofLines_itself {names : List String} (hn : ∀ n ∈ names, Path.IsName n) (hne : names ≠ [])
    {path : String} (hpath : "/".intercalate names = path) (hstrip : Text.strip path = path)
    (hplain : Plain path.toList) (hbare : path ≠ "!") :
    ∃ f, ofLines [path] = .ok f ∧ (f.lines = [] ↔ path.toList.head? = some '#') ∧
      (f.includes path = true ↔
        path.toList.head? ≠ some '#' ∧ path.toList.head? ≠ some '!') := by
  have hsplit := splitAt_names hn hne
  have hsubject := subject_of_names hn hne
  rw [hpath] at hsplit hsubject
  have hfilled : [] ∉ Text.splitAt '/' path.toList := by
    rw [hsplit]
    intro h
    obtain ⟨n, hmem, hempty⟩ := List.mem_map.mp h
    exact (hn n hmem).1 (String.toList_eq_nil_iff.mp hempty)
  have hempty : path ≠ "" := by
    rintro rfl
    exact hfilled (by simp [Text.splitAt])
  have hturned : turned path = path.toList := Path.map_turn_eq_self hplain.1
  have hend : ∀ c, path.toList.getLast? = some c → Text.isBlank c = false := by
    intro c hc
    rw [← hstrip] at hc
    exact Text.strip_last hc
  by_cases hcomment : path.toList.head? = some '#'
  · refine ⟨⟨[], []⟩, ?_, by simp [hcomment], by simp [includes, lastVerdict, hcomment]⟩
    rw [ofLines, clean_singleton hstrip, if_neg (by simp [hcomment])]
    rfl
  · have hclean : clean [path] = [path] := by
      rw [clean_singleton hstrip, if_pos ⟨hempty, hcomment⟩]
    by_cases hbang : path.toList.head? = some '!'
    · have hread : ∃ found, ofLine path.toList = .ok found := by
        cases hline : ofLine path.toList with
        | ok found => exact ⟨found, rfl⟩
        | error r =>
          have hline := (ofLine_error_iff (by simpa using hempty) hcomment hend).mp hline
          have hmore : path.toList ≠ ['!'] := fun h => hbare (String.toList_inj.mp h)
          exact absurd hline (not_refused_of_plain hplain hmore r)
      obtain ⟨found, hfound⟩ := hread
      have hnegated : ∀ p ∈ found.toList, p.negated = true := by
        intro p hp
        obtain rfl := Option.mem_toList.mp hp
        rw [negated_of_ofLine hfound]
        exact decide_eq_true hbang
      refine ⟨⟨[path], found.toList⟩, ?_, by simp [hcomment], ?_⟩
      · rw [ofLines, hclean, Pattern.ofLines, hfound]
        simp [Pattern.ofLines, Except.map]
      · simp [includes, lastVerdict_of_negated hnegated, isLiteral_of_bang hbang, hbang]
    · obtain ⟨shape, hshape, hhit⟩ := ofLine_itself hplain hfilled hcomment hbang hend
      have hread : Pattern.ofLines [path] = .ok [⟨false, shape⟩] := by
        rw [Pattern.ofLines, hshape]
        rfl
      refine ⟨⟨[path], [⟨false, shape⟩]⟩, ?_, by simp [hcomment], ?_⟩
      · rw [ofLines, hclean, hread]
        rfl
      · have hverdict := lastVerdict_singleton hhit
        simp [includes, hturned, hsubject, hverdict, hcomment, hbang]

theorem ofLines?_singleton {path : String} {f : IncludeFilter} (hf : ofLines [path] = .ok f) :
    ofLines? [path] = .ok (if f.lines = [] then none else some f) := by
  rw [ofLines?, hf]
  simp [Except.map]

end IncludeFilter

namespace Host
open Inventory

/-- With patterns to restrict it to, a scan lists what it lists without them and they include. -/
theorem scan_restricted {h : Host} {files : FileTree} {p : Path} {exclude only : List String}
    {i : Inventory} (hs : h.scan files p exclude [] = .ok i) {wanted : Option IncludeFilter}
    (hwanted : IncludeFilter.ofLines? only = .ok wanted) :
    ∃ narrower, h.scan files p exclude only = .ok narrower ∧ narrower.root = i.root ∧
      ∀ path, path ∈ narrower.files ↔
        path ∈ i.files ∧ ∀ f, wanted = some f → f.includes path = true := by
  obtain ⟨root, ignore, unrestricted, hroot, hignore, hnone, hwalk, rfl⟩ := scan_eq_ok.mp hs
  obtain rfl : none = unrestricted := Except.ok.inj hnone
  have hnarrower : h.scan files p exclude only = .ok (.ofScope ⟨ignore, wanted⟩ files root) :=
    scan_eq_ok.mpr ⟨root, ignore, wanted, hroot, hignore, hwanted, hwalk, rfl⟩
  refine ⟨_, hnarrower, rfl, fun path => ?_⟩
  rw [mem_files hnarrower, mem_files hs]
  simp only [ofScope, sources, List.mem_filter]
  cases wanted with
  | none => simp
  | some f => grind

/-- Where a file that is scanned is the only one asked for, by its path, the scan comes to an answer
and lists it, unless the path begins with an exclamation mark. This holds of paths with no white
space at their ends in which nothing is escaped and no brackets are opened; of these, the filter
includes all but those that it takes for comments or negated patterns. -/
theorem scan_only_itself (h : Host) (files : FileTree) (hw : files.WellFormed) (p : Path)
    (exclude : List String) (i : Inventory) (hs : h.scan files p exclude [] = .ok i)
    (path : String) (hp : path ∈ i.files) (hstrip : Text.strip path = path)
    (hplain : '[' ∉ path.toList ∧ '\\' ∉ path.toList) :
    ∃ f narrower, IncludeFilter.ofLines [path] = .ok f ∧
      h.scan files p exclude [path] = .ok narrower ∧
      (f.includes path = true ↔
        path.toList.head? ≠ some '#' ∧ path.toList.head? ≠ some '!') ∧
      (path ∈ narrower.files ↔ path.toList.head? ≠ some '!') ∧
      narrower.root = i.root ∧ narrower.files ⊆ i.files := by
  obtain ⟨⟨entries, hd⟩, -⟩ := scan_ok hs
  obtain ⟨place, hplace, hpath⟩ := (mem_files hs path).mp hp
  have hn := isName_of_mem_sources _ _ _ hw entries hd place hplace
  obtain ⟨dirs, name, rfl, hlisted⟩ := (mem_sources _ _ _ hw entries hd place).mp hplace
  have hbare : path ≠ "!" := by
    rintro rfl
    have hsource := hlisted.isSource
    rw [hpath] at hsource
    revert hsource
    decide
  obtain ⟨f, hf, hlines, hincludes⟩ := IncludeFilter.ofLines_itself hn (by simp) hpath hstrip
    hplain.symm hbare
  obtain ⟨narrower, hnarrower, hroot, hfiles⟩ :=
    scan_restricted hs (IncludeFilter.ofLines?_singleton hf)
  refine ⟨f, narrower, hf, hnarrower, hincludes, ?_, hroot, fun q hq => ((hfiles q).mp hq).1⟩
  rw [hfiles, and_iff_right hp]
  by_cases hcomment : path.toList.head? = some '#'
  · simp [hlines.mpr hcomment, hcomment]
  · have hkept : f.lines ≠ [] := mt hlines.mp hcomment
    simp [hkept, hincludes, hcomment]

/-- Files whose names have characters in them that mean something else in a pattern. -/
def markedTree : FileTree :=
  .directory [("repo", .directory [
    ("a[1].py", .file [] false),
    ("x**?].py", .file [] false),
    ("#b.py", .file [] false)])]

theorem markedTree_wellFormed : markedTree.WellFormed := by decide

private theorem marked_scan :
    ∃ i, sampleHost.scan markedTree sampleRoot [] [] = .ok i ∧
      ∀ path, path ∈ i.files ↔ path ∈ ["a[1].py", "x**?].py", "#b.py"] := by
  have hat : sampleHost.scannable markedTree sampleRoot = .ok sampleRoot.names := rfl
  obtain ⟨i, hs, hroot, hsources⟩ := scan_of_leaves markedTree_wellFormed hat rfl (by decide)
    (by simp) (by decide) (by decide)
  have hread : (sources i.scope markedTree sampleRoot.names).map pathText =
      ["a[1].py", "x**?].py", "#b.py"] := by
    rw [hsources]
    decide
  exact ⟨i, hs, fun path => by rw [← hread, mem_files hs, hroot, List.mem_map]⟩

theorem scan_only_itself_starred :
    ∃ i f narrower, sampleHost.scan markedTree sampleRoot [] [] = .ok i ∧
      "x**?].py" ∈ i.files ∧
      IncludeFilter.ofLines ["x**?].py"] = .ok f ∧ f.includes "x**?].py" = true ∧
      sampleHost.scan markedTree sampleRoot [] ["x**?].py"] = .ok narrower ∧
      "x**?].py" ∈ narrower.files := by
  obtain ⟨i, hs, hfiles⟩ := marked_scan
  have hp : "x**?].py" ∈ i.files := (hfiles _).mpr (by simp)
  obtain ⟨f, narrower, hf, hn, hincludes, hlists, -⟩ :=
    scan_only_itself sampleHost markedTree markedTree_wellFormed sampleRoot [] i hs
      "x**?].py" hp (by decide) (by decide)
  exact ⟨i, f, narrower, hs, hp, hf, hincludes.mpr (by decide), hn, hlists.mpr (by decide)⟩

/-- A path with brackets in it is read as a pattern in which they stand for one character. -/
theorem brackets_not_included :
    ∃ i f narrower, sampleHost.scan markedTree sampleRoot [] [] = .ok i ∧ "a[1].py" ∈ i.files ∧
      IncludeFilter.ofLines ["a[1].py"] = .ok f ∧ f.includes "a[1].py" = false ∧
      sampleHost.scan markedTree sampleRoot [] ["a[1].py"] = .ok narrower ∧
      "a[1].py" ∉ narrower.files := by
  obtain ⟨i, hs, hfiles⟩ := marked_scan
  have hread : ((IncludeFilter.ofLines ["a[1].py"]).toOption.map fun f =>
      (f.lines, f.includes "a[1].py")) = some (["a[1].py"], false) := by decide +kernel
  obtain ⟨f, ho, hread⟩ := Option.map_eq_some_iff.mp hread
  obtain ⟨hlines, hincludes⟩ := Prod.mk.inj hread
  have hf := toOption_eq_some.mp ho
  obtain ⟨narrower, hn, -, hlists⟩ := scan_restricted hs (IncludeFilter.ofLines?_singleton hf)
  refine ⟨i, f, narrower, hs, (hfiles _).mpr (by simp), hf, hincludes, hn, fun h => ?_⟩
  have hincluded := ((hlists _).mp h).2 f (by simp [hlines])
  rw [hincludes] at hincluded
  cases hincluded

end Host
end CodeAudit
