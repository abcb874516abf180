import CodeAudit.Proofs.Scan.Layers
namespace CodeAudit

theorem Text.trimEnd_prefix (cs : List Char) : trimEnd cs <+: cs := by
  have hsuffix := List.dropWhile_suffix isBlank (l := cs.reverse)
  rwa [← List.reverse_prefix, List.reverse_reverse] at hsuffix

namespace Pattern

/-- A line holds a negated pattern exactly if it begins with an exclamation mark. -/
theorem negated_of_ofLine {line : List Char} {p : Pattern} (h : ofLine line = .ok (some p)) :
    p.negated = decide (line.head? = some '!') := by
  unfold ofLine at h
  extract_lets escapedEnd cs at h
  have hcs : cs <+: line := by
    unfold cs
    split
    · exact List.prefix_refl line
    · exact Text.trimEnd_prefix line
  clear_value cs
  split at h
  · cases h
  · next hkept =>
    have hhead : cs.head? = line.head? := by
      obtain ⟨more, rfl⟩ := hcs
      cases cs with
      | nil => simp at hkept
      | cons c cs => rfl
    split at h
    next negated body hmark =>
    have hnegated : negated = decide (line.head? = some '!') := by
      rw [← hhead]
      split at hmark
      · cases hmark
        rfl
      · next hbang =>
        cases hmark
        cases cs with
        | nil => rfl
        | cons c cs =>
          have hc : c ≠ '!' := by
            intro h
            exact hbang cs (congrArg (· :: cs) h)
          simpa using hc
    extract_lets raw segments at h
    split at h
    · cases h
    · split at h
      · cases h
      · cases h
      · split at h
        · cases h
        · cases h
          exact hnegated

/-- A line that does not begin with an exclamation mark holds one pattern that is not negated, or
none. -/
theorem ofLines_clean_singleton {line : String} {patterns : List Pattern}
    (h : ofLines (clean [line]) = .ok patterns)
    (hl : (Text.strip line).toList.head? ≠ some '!') :
    patterns = [] ∨ ∃ p, patterns = [p] ∧ p.negated = false := by
  by_cases hkept : Text.strip line ≠ "" ∧ (Text.strip line).toList.head? ≠ some '#'
  · have hclean : clean [line] = [Text.strip line] := by simp [clean, hkept]
    rw [hclean, ofLines] at h
    split at h
    · cases h
    · next found hfound =>
      cases h
      cases found with
      | none => exact .inl rfl
      | some p => exact .inr ⟨p, rfl, (negated_of_ofLine hfound).trans (decide_eq_false hl)⟩
  · have hclean : clean [line] = [] := by
      simp only [clean, List.map_cons, List.map_nil]
      exact List.filter_eq_nil_iff.mpr fun s hs => by
        obtain rfl := List.mem_singleton.mp hs
        simpa using hkept
    rw [hclean] at h
    cases h
    exact .inl rfl

end Pattern

namespace IgnoreFilter
variable {wording : Wording} {files : FileTree} {directory : Place} {before after : List String}
  {q : String} {f g : IgnoreFilter}

/-- With one more line that does not begin with an exclamation mark, wherever it stands among the
lines asked for, all is left out that was left out without it. -/
theorem ignores_more (hf : ofDirectory wording files directory (before ++ after) = .ok f)
    (hg : ofDirectory wording files directory (before ++ [q] ++ after) = .ok g)
    (hq : (Text.strip q).toList.head? ≠ some '!') (path : String)
    (h : f.ignores path = true) : g.ignores path = true := by
  obtain ⟨project, hproject, hf⟩ := ofDirectory_eq_ok.mp hf
  obtain ⟨project', hproject', hg⟩ := ofDirectory_eq_ok.mp hg
  obtain rfl := Except.ok.inj (hproject.symm.trans hproject')
  have hf : ofLines ((builtinLines ++ before) ++
      (after ++ project ++ ownLines files directory)) = .ok f := by
    simpa using hf
  have hg : ofLines ((builtinLines ++ before) ++ ([q] ++
      (after ++ project ++ ownLines files directory))) = .ok g := by
    simpa using hg
  obtain ⟨first, last, hfirst, hlast, hpatterns⟩ := ofLines_append hf
  obtain ⟨first', own, hfirst', hown, hmore⟩ := ofLines_append hg
  obtain ⟨added, last', hadded, hlast', hsplit⟩ := ofLines_append hown
  obtain rfl := Except.ok.inj (hfirst.symm.trans hfirst')
  obtain rfl := Except.ok.inj (hlast.symm.trans hlast')
  obtain ⟨hinside, hverdict⟩ := (f.ignores_iff path).mp h
  refine (g.ignores_iff path).mpr ⟨hinside, ?_⟩
  rw [hpatterns] at hverdict
  rw [hmore, hsplit]
  rcases Pattern.ofLines_clean_singleton (ofLines_patterns hadded) hq with hnone | hone
  · rwa [hnone, List.nil_append]
  · obtain ⟨p, hp, hpositive⟩ := hone
    rw [hp, List.singleton_append]
    exact Pattern.verdict_insert hpositive hverdict

end IgnoreFilter

namespace Inventory

theorem metAt_mono {enters wider : Place → Bool}
    (h : ∀ names, enters names = true → wider names = true) (t : FileTree) (names place : Place)
    (hp : place ∈ metAt enters names t) : place ∈ metAt wider names t := by
  induction t using FileTree.entryInduction generalizing names with
  | file content executable => exact hp
  | link target => exact hp
  | unreadable => exact hp
  | closed listed =>
    rw [metAt] at hp ⊢
    split at hp
    · next he => rwa [if_pos (h names he)]
    · cases hp
  | directory entries ih =>
    rw [mem_metAt_directory] at hp ⊢
    obtain ⟨he, e, hmem, hp⟩ := hp
    exact ⟨h names he, e, hmem, ih e.1 e.2 hmem (names ++ [e.1]) hp⟩

theorem filesBelow_antitone {ignored more : String → Bool}
    (h : ∀ path, ignored path = true → more path = true) (files : FileTree) (root place : Place)
    (hp : place ∈ filesBelow more files root) : place ∈ filesBelow ignored files root := by
  have hopen (path : String) (hm : more path = false) : ignored path = false := by
    cases hi : ignored path with
    | false => rfl
    | true => rw [h path hi] at hm; exact Bool.noConfusion hm
  obtain ⟨hmet, hkept⟩ := List.mem_filter.mp hp
  obtain ⟨hfile, hkept⟩ := Bool.and_eq_true_iff.mp hkept
  refine List.mem_filter.mpr ⟨?_, Bool.and_eq_true_iff.mpr ⟨hfile, ?_⟩⟩
  · rw [met] at hmet ⊢
    cases hd : files.at? root with
    | none =>
      rw [hd] at hmet
      cases hmet
    | some t =>
      rw [hd] at hmet
      refine metAt_mono (fun names he => ?_) t [] place hmet
      simp only [Bool.or_eq_true, Bool.and_eq_true, Bool.not_eq_true'] at he ⊢
      exact he.imp_right fun hn => ⟨hopen _ hn.1, hn.2⟩
  · rw [Bool.not_eq_true'] at hkept ⊢
    exact hopen _ hkept

/-- What counts where more is left out counts where less is left out, if no more is asked for. -/
theorem sources_antitone {scope wider : Scope} (honly : scope.only = wider.only)
    (h : ∀ path, wider.ignore.ignores path = true → scope.ignore.ignores path = true)
    (files : FileTree) (root place : Place) (hp : place ∈ sources scope files root) :
    place ∈ sources wider files root := by
  obtain ⟨hbelow, hcounts⟩ := List.mem_filter.mp hp
  exact List.mem_filter.mpr ⟨filesBelow_antitone h files root place hbelow, honly ▸ hcounts⟩

end Inventory

namespace Host
open Inventory

/-- Where one more line of what to exclude does not begin with an exclamation mark, no file is
scanned that was not scanned without it, whatever else is excluded or taken back in. -/
theorem scan_exclude_more (h : Host) (files : FileTree) (p : Path) (before after only : List String)
    (q : String) (hq : (Text.strip q).toList.head? ≠ some '!') (wider narrower : Inventory)
    (hw : h.scan files p (before ++ after) only = .ok wider)
    (hn : h.scan files p (before ++ [q] ++ after) only = .ok narrower) :
    narrower.root = wider.root ∧ narrower.files ⊆ wider.files ∧
      narrower.extensions ⊆ wider.extensions := by
  have hroot : narrower.root = wider.root := by
    have hnames := Except.ok.inj ((scannable_of_scan hn).symm.trans (scannable_of_scan hw))
    obtain ⟨-, -, -, hi, -⟩ := scan_ok hw
    obtain ⟨-, -, -, hi', -⟩ := scan_ok hn
    have hwide : wider.root = ⟨.root, wider.root.names⟩ := congrArg Inventory.root hi
    have hnarrow : narrower.root = ⟨.root, narrower.root.names⟩ := congrArg Inventory.root hi'
    rw [hwide, hnarrow, hnames]
  obtain ⟨-, hwide, hwideOnly, -⟩ := scan_ok hw
  obtain ⟨-, hnarrow, hnarrowOnly, -⟩ := scan_ok hn
  rw [hroot] at hnarrow
  have hignores := IgnoreFilter.ignores_more hwide hnarrow hq
  have honly := Except.ok.inj (hnarrowOnly.symm.trans hwideOnly)
  have hsources (place : Place) (hp : place ∈ sources narrower.scope files narrower.root.names) :
      place ∈ sources wider.scope files wider.root.names :=
    sources_antitone honly hignores files _ place (hroot ▸ hp)
  refine ⟨hroot, fun path hpath => ?_, fun e he => ?_⟩
  · obtain ⟨place, hp, rfl⟩ := (mem_files hn path).mp hpath
    exact (mem_files hw _).mpr ⟨place, hsources place hp, rfl⟩
  · obtain ⟨place, hp, rfl⟩ := (mem_extensions hn e).mp he
    exact (mem_extensions hw _).mpr ⟨place, hsources place hp, rfl⟩

/-- The files that count in a scan of the sample. -/
private def sampleSources (exclude : List String) : Option (List String) :=
  (sampleHost.scan sampleTree sampleRoot exclude []).toOption.map fun i =>
    (sources i.scope sampleTree i.root.names).map pathText

private theorem mem_sample (exclude paths : List String)
    (h : sampleSources exclude = some paths) :
    ∃ i, sampleHost.scan sampleTree sampleRoot exclude [] = .ok i ∧
      ∀ path, path ∈ i.files ↔ path ∈ paths := by
  obtain ⟨i, ho, rfl⟩ := Option.map_eq_some_iff.mp h
  have hs := toOption_eq_some.mp ho
  exact ⟨i, hs, fun path => by rw [mem_files hs, List.mem_map]⟩

/-- A directory is left out as well, between a pattern for files and a negated one. -/
theorem scan_exclude_more_sample :
    ∃ wider narrower,
      sampleHost.scan sampleTree sampleRoot (["*.py"] ++ ["!link.py"]) [] = .ok wider ∧
      sampleHost.scan sampleTree sampleRoot (["*.py"] ++ [" src/ "] ++ ["!link.py"]) [] =
        .ok narrower ∧
      narrower.files ⊆ wider.files ∧ "link.py" ∈ narrower.files ∧
      "src/b.TS" ∈ wider.files ∧ "src/b.TS" ∉ narrower.files := by
  have hread : sampleSources (["*.py"] ++ ["!link.py"]) = some ["link.py", "src/b.TS"] ∧
      sampleSources (["*.py"] ++ [" src/ "] ++ ["!link.py"]) = some ["link.py"] := by
    decide +kernel
  obtain ⟨wider, hw, hwide⟩ := mem_sample _ _ hread.1
  obtain ⟨narrower, hn, hnarrow⟩ := mem_sample _ _ hread.2
  have hfewer := (scan_exclude_more sampleHost sampleTree sampleRoot ["*.py"] ["!link.py"] []
    " src/ " (by decide) wider narrower hw hn).2.1
  refine ⟨wider, narrower, hw, hn, hfewer, ?_, ?_, ?_⟩
  · simp [hnarrow]
  · simp [hwide]
  · simp [hnarrow]

end Host
end CodeAudit
