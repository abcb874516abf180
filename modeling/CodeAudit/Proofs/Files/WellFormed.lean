import CodeAudit.Files.Resolve
import CodeAudit.Proofs.Path.Names
namespace CodeAudit.FileTree

/-- Induction on a tree: what holds of all entries of a directory carries over to the directory. -/
@[elab_as_elim] theorem entryInduction {motive : FileTree → Prop}
    (file : ∀ content executable, motive (.file content executable))
    (link : ∀ target, motive (.link target)) (unreadable : motive .unreadable)
    (closed : ∀ names, motive (.closed names))
    (directory : ∀ entries, (∀ n t, (n, t) ∈ entries → motive t) → motive (.directory entries)) :
    ∀ t, motive t
  | .file content executable => file content executable
  | .link target => link target
  | .unreadable => unreadable
  | .closed names => closed names
  | .directory entries => directory entries fun n t hm =>
    have : sizeOf t < 1 + sizeOf entries := by
      have hl := List.sizeOf_lt_of_mem hm
      rw [Prod.mk.sizeOf_spec] at hl
      omega
    entryInduction file link unreadable closed directory t

mutual
/-- A tree as file systems hold it: within a directory each name is one that a file can have, and
stands for one thing. -/
def WellFormed : FileTree → Prop
  | .directory entries => (entries.map Prod.fst).Nodup ∧ WellFormedEntries entries
  | .closed names => names.Nodup ∧ ∀ n ∈ names, Path.IsName n
  | _ => True

def WellFormedEntries : List (String × FileTree) → Prop
  | [] => True
  | (n, t) :: rest => Path.IsName n ∧ WellFormed t ∧ WellFormedEntries rest
end

mutual
def decideWellFormed : (t : FileTree) → Decidable t.WellFormed
  | .directory entries =>
    have := decideWellFormedEntries entries
    inferInstanceAs (Decidable ((entries.map Prod.fst).Nodup ∧ WellFormedEntries entries))
  | .closed names => inferInstanceAs (Decidable (names.Nodup ∧ ∀ n ∈ names, Path.IsName n))
  | .file _ _ => isTrue trivial
  | .link _ => isTrue trivial
  | .unreadable => isTrue trivial

def decideWellFormedEntries : (entries : List (String × FileTree)) →
    Decidable (WellFormedEntries entries)
  | [] => isTrue trivial
  | (n, t) :: rest =>
    have := decideWellFormed t
    have := decideWellFormedEntries rest
    inferInstanceAs (Decidable (Path.IsName n ∧ WellFormed t ∧ WellFormedEntries rest))
end

instance (t : FileTree) : Decidable t.WellFormed := decideWellFormed t

theorem wellFormedEntries_iff (entries : List (String × FileTree)) :
    WellFormedEntries entries ↔ ∀ n t, (n, t) ∈ entries → Path.IsName n ∧ t.WellFormed := by
  induction entries with
  | nil => simp [WellFormedEntries]
  | cons e rest ih =>
    obtain ⟨m, s⟩ := e
    rw [WellFormedEntries, ih]
    constructor
    · intro h n t hmem
      obtain ⟨hm, hs, hrest⟩ := h
      rcases List.mem_cons.mp hmem with he | hmem
      · obtain ⟨rfl, rfl⟩ := Prod.mk.injEq .. ▸ he
        exact ⟨hm, hs⟩
      · exact hrest n t hmem
    · intro h
      obtain ⟨hm, hs⟩ := h m s (by simp)
      exact ⟨hm, hs, fun n t hmem => h n t (List.mem_cons_of_mem _ hmem)⟩

theorem mem_of_lookup {entries : List (String × FileTree)} {n : String} {t : FileTree}
    (h : entries.lookup n = some t) : (n, t) ∈ entries := by
  obtain ⟨before, after, rfl, -⟩ := List.lookup_eq_some_iff.mp h
  simp

/-- Where no name stands twice, what is in a list is what is found in it. -/
theorem lookup_iff_mem {entries : List (String × FileTree)}
    (hn : (entries.map Prod.fst).Nodup) (n : String) (t : FileTree) :
    entries.lookup n = some t ↔ (n, t) ∈ entries := by
  refine ⟨mem_of_lookup, ?_⟩
  intro hm
  obtain ⟨before, after, rfl⟩ := List.append_of_mem hm
  apply List.lookup_eq_some_iff.mpr
  refine ⟨before, after, rfl, ?_⟩
  intro e he
  rw [List.map_append, List.map_cons] at hn
  have hd := (List.nodup_append.mp hn).2.2 e.1 (List.mem_map_of_mem he) n (by simp)
  simpa using Ne.symm hd

theorem at?_append (a b : Place) (t : FileTree) : at? (a ++ b) t = (at? a t).bind (at? b) := by
  induction a generalizing t with
  | nil => rfl
  | cons n a ih =>
    rw [List.cons_append, at?, at?]
    cases t.entry? n with
    | none => rfl
    | some s => exact ih s

theorem at?_directory (n : String) (rest : Place) (entries : List (String × FileTree)) :
    at? (n :: rest) (.directory entries) = (entries.lookup n).bind (at? rest) := rfl

/-- What is reached by a further name is an entry of a directory. -/
theorem at?_concat {place : Place} {n : String} {root t : FileTree}
    (h : root.at? (place ++ [n]) = some t) :
    ∃ entries, root.at? place = some (.directory entries) ∧ entries.lookup n = some t := by
  rw [at?_append] at h
  obtain ⟨s, hs, ht⟩ := Option.bind_eq_some_iff.mp h
  cases s with
  | directory entries =>
    rw [at?_directory] at ht
    obtain ⟨u, hu, he⟩ := Option.bind_eq_some_iff.mp ht
    exact ⟨entries, hs, by rw [hu]; exact he⟩
  | _ => simp [at?, entry?] at ht

/-- What is above something that is there is a directory. -/
theorem at?_above {above rest : Place} {root t : FileTree}
    (h : root.at? (above ++ rest) = some t) (hne : rest ≠ []) :
    ∃ entries, root.at? above = some (.directory entries) := by
  cases rest with
  | nil => exact absurd rfl hne
  | cons n rest =>
    have hs : above ++ n :: rest = (above ++ [n]) ++ rest := by simp
    rw [hs, at?_append] at h
    obtain ⟨s, hn, -⟩ := Option.bind_eq_some_iff.mp h
    obtain ⟨entries, he, -⟩ := at?_concat hn
    exact ⟨entries, he⟩

/-- What stands anywhere in a well formed tree is well formed, and the way there goes through
names. -/
theorem WellFormed.at? {t : FileTree} (ht : t.WellFormed) {place : Place} {s : FileTree}
    (h : t.at? place = some s) : s.WellFormed ∧ ∀ n ∈ place, Path.IsName n := by
  induction place generalizing t with
  | nil =>
    obtain rfl : t = s := Option.some.inj h
    exact ⟨ht, by simp⟩
  | cons n rest ih =>
    cases t with
    | directory entries =>
      rw [at?_directory] at h
      obtain ⟨u, hu, hrest⟩ := Option.bind_eq_some_iff.mp h
      rw [WellFormed, wellFormedEntries_iff] at ht
      obtain ⟨hn, hwf⟩ := ht.2 n u (mem_of_lookup hu)
      obtain ⟨hs, hall⟩ := ih hwf hrest
      exact ⟨hs, by simpa using ⟨hn, hall⟩⟩
    | _ => simp [FileTree.at?, entry?] at h

/-- A step that is a name, and neither stays nor goes back. -/
def IsPlain (n : String) : Prop := ¬ (n = "" ∨ n = ".") ∧ n ≠ ".."

theorem isPlain_of_isName {n : String} (hn : Path.IsName n) : IsPlain n :=
  ⟨not_or.mpr ⟨hn.1, hn.2.1⟩, hn.2.2.1⟩

/-- What a directory has under a name is reached by it, unless it is a link. -/
theorem walk_entry {follow : Place → List String → Except SystemError Place} {root t : FileTree}
    {here : Place} {n : String} {rest : List String} {entries : List (String × FileTree)}
    (hd : root.at? here = some (.directory entries)) (hn : IsPlain n)
    (ht : entries.lookup n = some t) (hl : ∀ target, t ≠ .link target) :
    walk follow root here (n :: rest) = walk follow root (here ++ [n]) rest := by
  rw [walk, hd]
  dsimp only
  rw [if_neg hn.1, if_neg hn.2, ht]
  cases t with
  | link target => exact absurd rfl (hl target)
  | _ => rfl

/-- The names of directories on a way into the tree stand for what is reached by them. -/
theorem lookup_of_at? {root : FileTree} {here : Place} {n : String} {rest : Place} {t : FileTree}
    (h : root.at? (here ++ n :: rest) = some t) : ∃ entries u,
      root.at? here = some (.directory entries) ∧ entries.lookup n = some u ∧
        u.at? rest = some t := by
  obtain ⟨entries, he⟩ := at?_above h (by simp)
  rw [at?_append, he, Option.bind_some, at?_directory] at h
  obtain ⟨u, hu, hrest⟩ := Option.bind_eq_some_iff.mp h
  exact ⟨entries, u, he, hu, hrest⟩

/-- A way through directories of the tree leads where it says, whatever links stand for. -/
theorem walk_at? (follow : Place → List String → Except SystemError Place) (root : FileTree)
    (here rest after : Place) (t : FileTree) (h : root.at? (here ++ rest) = some t)
    (hl : ∀ target, t ≠ .link target) (hplain : ∀ n ∈ rest, IsPlain n) :
    walk follow root here (rest ++ after) = walk follow root (here ++ rest) after := by
  induction rest generalizing here with
  | nil => rw [List.append_nil, List.nil_append]
  | cons n rest ih =>
    obtain ⟨hn, hrest⟩ := List.forall_mem_cons.mp hplain
    obtain ⟨entries, u, he, hu, hbelow⟩ := lookup_of_at? h
    have hlink : ∀ target, u ≠ .link target := by
      rintro target rfl
      cases rest with
      | nil => exact hl target (Option.some.inj hbelow).symm
      | cons m rest => cases hbelow
    have hs : here ++ n :: rest = (here ++ [n]) ++ rest := by simp
    rw [List.cons_append, walk_entry he hn hu hlink, hs]
    rw [hs] at h
    exact ih (here ++ [n]) h hrest

theorem resolve_at? {root t : FileTree} {place : Place} (h : root.at? place = some t)
    (hl : ∀ target, t ≠ .link target) (hplain : ∀ n ∈ place, IsPlain n) :
    root.resolve place = .ok place := by
  have hwalk := walk_at? (resolveWithin root maxLinks) root [] place [] t h hl hplain
  rw [List.append_nil] at hwalk
  rw [resolve, resolveWithin, hwalk]
  rfl

theorem find_missing {root : FileTree} {place : Place} {entries : List (String × FileTree)}
    {n : String} (h : root.at? place = some (.directory entries))
    (hplain : ∀ n ∈ place, IsPlain n) (hn : IsPlain n) (hm : root.at? (place ++ [n]) = none) :
    root.find (place ++ [n]) = .error (missing n) := by
  have hlookup : entries.lookup n = none := by
    rw [at?_append, h, Option.bind_some, at?_directory] at hm
    cases hl : entries.lookup n with
    | none => rfl
    | some t =>
      rw [hl] at hm
      cases hm
  have hresolve : root.resolve (place ++ [n]) = .error (missing n) := by
    rw [resolve, resolveWithin, walk_at? _ root [] place [n] _ h (by simp) hplain, List.nil_append,
      walk, h]
    dsimp only
    rw [if_neg hn.1, if_neg hn.2, hlookup]
  rw [find, hresolve]
  rfl

theorem find_closed {root : FileTree} {place : Place} {listed : List String} {n : String}
    (h : root.at? place = some (.closed listed)) (hplain : ∀ n ∈ place, IsPlain n)
    (hn : IsPlain n) : root.find (place ++ [n]) = .error .permissionDenied := by
  have hempty : n ≠ "" := fun he => hn.1 (.inl he)
  have hresolve : root.resolve (place ++ [n]) = .error .permissionDenied := by
    rw [resolve, resolveWithin, walk_at? _ root [] place [n] _ h (by simp) hplain, List.nil_append,
      walk, h]
    dsimp only
    rw [if_neg hempty]
  rw [find, hresolve]
  rfl

theorem find_at? {root t : FileTree} {place : Place} (h : root.at? place = some t)
    (hl : ∀ target, t ≠ .link target) (hplain : ∀ n ∈ place, IsPlain n) :
    root.find place = .ok t := by
  rw [find, resolve_at? h hl hplain, Except.bind, h]

end CodeAudit.FileTree
