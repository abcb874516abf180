import CodeAudit.Proofs.Files.WellFormed
import CodeAudit.Proofs.Steps
namespace CodeAudit.FileTree

/-- A step that stays can be taken carefully: here is a directory, and one that may be searched
unless nothing follows a slash. -/
def Stays (root : FileTree) (here : Place) (n : String) : Prop :=
  (∃ entries, root.at? here = some (.directory entries)) ∨
    n = "" ∧ ∃ names, root.at? here = some (.closed names)

/-- A way step by step from one place to another, with the links on it counted, also those that a
link leads through. On a careful way only directories are stayed in and gone back from. -/
inductive Way (root : FileTree) (careful : Bool) : Place → List String → Nat → Place → Prop
  | done (here : Place) : Way root careful here [] 0 here
  | stay {here there : Place} {n : String} {rest : List String} {k : Nat} (hn : n = "" ∨ n = ".")
      (hdir : careful = true → Stays root here n) (hrest : Way root careful here rest k there) :
      Way root careful here (n :: rest) k there
  | back {here there : Place} {rest : List String} {k : Nat}
      (hdir : careful = true → ∃ entries, root.at? here = some (.directory entries))
      (hrest : Way root careful here.dropLast rest k there) :
      Way root careful here (".." :: rest) k there
  | enter {here there : Place} {n : String} {rest : List String} {k : Nat}
      {entries : List (String × FileTree)} {t : FileTree} (hn : IsPlain n)
      (hdir : root.at? here = some (.directory entries)) (ht : entries.lookup n = some t)
      (hl : ∀ target, t ≠ .link target) (hrest : Way root careful (here ++ [n]) rest k there) :
      Way root careful here (n :: rest) k there
  | follow {here mid there : Place} {n target : String} {rest : List String} {i j : Nat}
      {entries : List (String × FileTree)} (hn : IsPlain n)
      (hdir : root.at? here = some (.directory entries))
      (ht : entries.lookup n = some (.link target))
      (hlink : Way root careful (linkStart target here) (linkSteps target) i mid)
      (hrest : Way root careful mid rest j there) :
      Way root careful here (n :: rest) (i + j + 1) there

theorem not_isPlain_stay {n : String} (hn : n = "" ∨ n = ".") : ¬ IsPlain n :=
  fun hplain => hplain.1 hn

theorem not_isPlain_back : ¬ IsPlain ".." := fun hplain => hplain.2 rfl

theorem not_stay_back : ¬ (".." = "" ∨ ".." = ".") := by decide

namespace Way
variable {root : FileTree} {careful : Bool} {here mid there : Place} {a b rest : List String}
  {i j k : Nat}

theorem append (h : Way root careful here a i mid) (h' : Way root careful mid b j there) :
    Way root careful here (a ++ b) (i + j) there := by
  induction h with
  | done here =>
    rw [List.nil_append, Nat.zero_add]
    exact h'
  | stay hn hdir hrest ih => exact .stay hn hdir (ih h')
  | back hdir hrest ih => exact .back hdir (ih h')
  | enter hn hdir ht hl hrest ih => exact .enter hn hdir ht hl (ih h')
  | @follow here mid there n target rest i' j' entries hn hdir ht hlink hrest _ ih =>
    have hcount : i' + j' + 1 + j = i' + (j' + j) + 1 := by omega
    rw [List.cons_append, hcount]
    exact .follow hn hdir ht hlink (ih h')

theorem split (h : Way root careful here (a ++ b) k there) :
    ∃ i j mid, Way root careful here a i mid ∧ Way root careful mid b j there ∧ k = i + j := by
  induction a generalizing here k with
  | nil => exact ⟨0, k, here, .done here, h, (Nat.zero_add k).symm⟩
  | cons n a ih =>
    cases h with
    | stay hn hdir hrest =>
      obtain ⟨i, j, mid, ha, hb, hk⟩ := ih hrest
      exact ⟨i, j, mid, .stay hn hdir ha, hb, hk⟩
    | back hdir hrest =>
      obtain ⟨i, j, mid, ha, hb, hk⟩ := ih hrest
      exact ⟨i, j, mid, .back hdir ha, hb, hk⟩
    | enter hn hdir ht hl hrest =>
      obtain ⟨i, j, mid, ha, hb, hk⟩ := ih hrest
      exact ⟨i, j, mid, .enter hn hdir ht hl ha, hb, hk⟩
    | @follow _ _ _ _ _ _ i' _ _ hn hdir ht hlink hrest =>
      obtain ⟨i, j, mid, ha, hb, rfl⟩ := ih hrest
      exact ⟨i' + i + 1, j, mid, .follow hn hdir ht hlink ha, hb, by omega⟩

/-- A way leads to one place through one number of links, whether it is careful or not. -/
theorem unique {careful' : Bool} {k' : Nat} {there' : Place}
    (h : Way root careful here rest k there) (h' : Way root careful' here rest k' there') :
    k = k' ∧ there = there' := by
  induction h generalizing k' there' with
  | done here =>
    cases h'
    exact ⟨rfl, rfl⟩
  | stay hn hdir hrest ih =>
    cases h' with
    | stay hn' hdir' hrest' => exact ih hrest'
    | back hdir' hrest' => exact absurd hn not_stay_back
    | enter hn' => exact absurd hn' (not_isPlain_stay hn)
    | follow hn' => exact absurd hn' (not_isPlain_stay hn)
  | back hdir hrest ih =>
    cases h' with
    | stay hn' => exact absurd hn' not_stay_back
    | back hdir' hrest' => exact ih hrest'
    | enter hn' => exact absurd hn' not_isPlain_back
    | follow hn' => exact absurd hn' not_isPlain_back
  | enter hn hdir ht hl hrest ih =>
    cases h' with
    | stay hn' => exact absurd hn (not_isPlain_stay hn')
    | back hdir' hrest' => exact absurd hn not_isPlain_back
    | enter hn' hdir' ht' hl' hrest' => exact ih hrest'
    | follow hn' hdir' ht' hlink' hrest' =>
      cases hdir.symm.trans hdir'
      exact absurd (Option.some.inj (ht.symm.trans ht')) (hl _)
  | follow hn hdir ht hlink hrest ihl ihr =>
    cases h' with
    | stay hn' => exact absurd hn (not_isPlain_stay hn')
    | back hdir' hrest' => exact absurd hn not_isPlain_back
    | enter hn' hdir' ht' hl' hrest' =>
      cases hdir.symm.trans hdir'
      exact absurd (Option.some.inj (ht'.symm.trans ht)) (hl' _)
    | follow hn' hdir' ht' hlink' hrest' =>
      cases hdir.symm.trans hdir'
      cases ht.symm.trans ht'
      obtain ⟨rfl, rfl⟩ := ihl hlink'
      obtain ⟨rfl, rfl⟩ := ihr hrest'
      exact ⟨rfl, rfl⟩

/-- A way leads to a place that is named by names alone. -/
theorem plain (h : Way root careful here rest k there) (hd : ∀ n ∈ here, IsPlain n) :
    ∀ n ∈ there, IsPlain n := by
  induction h with
  | done here => exact hd
  | stay hn hdir hrest ih => exact ih hd
  | back hdir hrest ih => exact ih fun n hm => hd n (List.dropLast_subset _ hm)
  | enter hn hdir ht hl hrest ih =>
    exact ih (List.forall_mem_append.mpr ⟨hd, List.forall_mem_singleton.mpr hn⟩)
  | follow hn hdir ht hlink hrest ihl ihr =>
    refine ihr (ihl ?_)
    unfold linkStart
    split
    · simp
    · exact hd

end Way

variable {root : FileTree} {b : Nat}

section
variable {follow : Place → List String → Except SystemError Place} {here : Place} {n : String}
  {entries : List (String × FileTree)}

theorem walk_stay (hn : n = "" ∨ n = ".") (hs : Stays root here n) (rest : List String) :
    walk follow root here (n :: rest) = walk follow root here rest := by
  rw [walk]
  obtain ⟨entries, hdir⟩ | ⟨hempty, names, hclosed⟩ := hs
  · rw [hdir]
    exact if_pos hn
  · rw [hclosed]
    exact if_pos hempty

theorem walk_back (hdir : root.at? here = some (.directory entries)) (rest : List String) :
    walk follow root here (".." :: rest) = walk follow root here.dropLast rest := by
  rw [walk, hdir]
  dsimp only
  rw [if_neg not_stay_back, if_pos rfl]

theorem walk_link {target : String} (hn : IsPlain n)
    (hdir : root.at? here = some (.directory entries))
    (ht : entries.lookup n = some (.link target)) (rest : List String) :
    walk follow root here (n :: rest) =
      follow (linkStart target here) (linkSteps target ++ rest) := by
  rw [walk, hdir]
  dsimp only
  rw [if_neg hn.1, if_neg hn.2, ht]

end

/-- What becomes of a careful way at its next name: it stays, goes back, enters or follows a link,
or it ends in an error, whatever is to come. -/
inductive Step (root : FileTree) (here : Place) : String → Prop
  | stay {n : String} (hn : n = "" ∨ n = ".") (hs : Stays root here n) : Step root here n
  | back {entries : List (String × FileTree)} (hdir : root.at? here = some (.directory entries)) :
    Step root here ".."
  | enter {n : String} {entries : List (String × FileTree)} {t : FileTree} (hn : IsPlain n)
    (hdir : root.at? here = some (.directory entries)) (ht : entries.lookup n = some t)
    (hl : ∀ target, t ≠ .link target) : Step root here n
  | follow {n target : String} {entries : List (String × FileTree)} (hn : IsPlain n)
    (hdir : root.at? here = some (.directory entries))
    (ht : entries.lookup n = some (.link target)) : Step root here n
  | stop {n : String} (e : SystemError)
    (he : ∀ follow rest, walk follow root here (n :: rest) = .error e) : Step root here n

theorem step_cases (root : FileTree) (here : Place) (n : String) : Step root here n := by
  cases hat : root.at? here with
  | none => exact .stop .noEntry fun _ _ => by rw [walk, hat]
  | some t =>
    cases t with
    | directory entries =>
      by_cases hstay : n = "" ∨ n = "."
      · exact .stay hstay (.inl ⟨entries, hat⟩)
      by_cases hback : n = ".."
      · exact hback ▸ .back hat
      cases hl : entries.lookup n with
      | none =>
        refine .stop (missing n) fun _ _ => ?_
        rw [walk, hat]
        dsimp only
        rw [if_neg hstay, if_neg hback, hl]
      | some u =>
        cases u with
        | link target => exact .follow ⟨hstay, hback⟩ hat hl
        | _ => exact .enter ⟨hstay, hback⟩ hat hl (by simp)
    | closed names =>
      by_cases hempty : n = ""
      · exact .stay (.inl hempty) (.inr ⟨hempty, names, hat⟩)
      · refine .stop .permissionDenied fun _ _ => ?_
        rw [walk, hat]
        exact if_neg hempty
    | _ => exact .stop .notDirectory fun _ _ => by rw [walk, hat]

/-- Where ways through fewer than so many links are followed, a way through one more is walked. -/
theorem walk_ok_iff {follow : Place → List String → Except SystemError Place}
    (hf : ∀ (here : Place) (rest : List String) (there : Place), follow here rest = .ok there ↔
      ∃ k < b, Way root true here rest k there) (here : Place) (rest : List String)
    (there : Place) :
    walk follow root here rest = .ok there ↔ ∃ k < b + 1, Way root true here rest k there := by
  induction rest generalizing here with
  | nil =>
    rw [walk]
    constructor
    · intro h
      cases h
      exact ⟨0, Nat.succ_pos b, .done _⟩
    · intro h
      obtain ⟨k, -, hw⟩ := h
      cases hw
      rfl
  | cons n rest ih =>
    constructor
    · intro h
      cases step_cases root here n with
      | stay hn hs =>
        rw [walk_stay hn hs] at h
        obtain ⟨k, hk, hw⟩ := (ih _).mp h
        exact ⟨k, hk, .stay hn (fun _ => hs) hw⟩
      | back hdir =>
        rw [walk_back hdir] at h
        obtain ⟨k, hk, hw⟩ := (ih _).mp h
        exact ⟨k, hk, .back (fun _ => ⟨_, hdir⟩) hw⟩
      | enter hn hdir ht hl =>
        rw [walk_entry hdir hn ht hl] at h
        obtain ⟨k, hk, hw⟩ := (ih _).mp h
        exact ⟨k, hk, .enter hn hdir ht hl hw⟩
      | follow hn hdir ht =>
        rw [walk_link hn hdir ht] at h
        obtain ⟨k, hk, hw⟩ := (hf _ _ _).mp h
        obtain ⟨i, j, mid, hlink, hrest, rfl⟩ := hw.split
        exact ⟨i + j + 1, by omega, .follow hn hdir ht hlink hrest⟩
      | stop e he =>
        rw [he] at h
        cases h
    · intro h
      obtain ⟨k, hk, hw⟩ := h
      cases hw with
      | stay hn hdir hrest =>
        rw [walk_stay hn (hdir rfl)]
        exact (ih _).mpr ⟨k, hk, hrest⟩
      | back hdir hrest =>
        obtain ⟨entries, hdir⟩ := hdir rfl
        rw [walk_back hdir]
        exact (ih _).mpr ⟨k, hk, hrest⟩
      | enter hn hdir ht hl hrest =>
        rw [walk_entry hdir hn ht hl]
        exact (ih _).mpr ⟨k, hk, hrest⟩
      | follow hn hdir ht hlink hrest =>
        rw [walk_link hn hdir ht]
        exact (hf _ _ _).mpr ⟨_, by omega, hlink.append hrest⟩

theorem resolveWithin_ok_iff (here : Place) (rest : List String) (there : Place) :
    root.resolveWithin b here rest = .ok there ↔ ∃ k < b, Way root true here rest k there := by
  induction b generalizing here rest there with
  | zero => simp [resolveWithin]
  | succ b ih => exact walk_ok_iff ih here rest there

/-- What a place leads to is found exactly if a careful way leads there, not through too many
links. -/
theorem resolve_ok_iff {place there : Place} :
    root.resolve place = .ok there ↔ ∃ k ≤ maxLinks, Way root true [] place k there := by
  rw [resolve, resolveWithin_ok_iff]
  simp only [Nat.lt_succ_iff]

/-- Where ways are followed, ways are traced, though not only careful ones. -/
theorem trace_way {follow : Place → List String → Except SystemError Place}
    (hf : ∀ (here : Place) (rest : List String) (there : Place), follow here rest = .ok there →
      ∃ k, Way root false here rest k there) {here there : Place} {rest : List String}
    (h : trace follow root here rest = .ok there) : ∃ k, Way root false here rest k there := by
  induction rest generalizing here with
  | nil =>
    rw [trace] at h
    cases h
    exact ⟨0, .done _⟩
  | cons n rest ih =>
    rw [trace] at h
    by_cases hstay : n = "" ∨ n = "."
    · rw [if_pos hstay] at h
      obtain ⟨k, hw⟩ := ih h
      exact ⟨k, .stay hstay nofun hw⟩
    rw [if_neg hstay] at h
    by_cases hn : n = ".."
    · rw [if_pos hn] at h
      obtain ⟨k, hw⟩ := ih h
      exact ⟨k, hn ▸ .back nofun hw⟩
    rw [if_neg hn] at h
    split at h
    · cases h
    split at h
    · next entries hdir =>
      split at h
      · cases h
      · next target ht =>
        split at h
        · next mid hmid =>
          obtain ⟨i, hlink⟩ := hf _ _ _ hmid
          obtain ⟨j, hrest⟩ := ih h
          exact ⟨i + j + 1, .follow ⟨hstay, hn⟩ hdir ht hlink hrest⟩
        · cases h
      · next t hl ht =>
        obtain ⟨k, hw⟩ := ih h
        exact ⟨k, .enter ⟨hstay, hn⟩ hdir ht hl hw⟩
    · cases h
    · cases h
    · cases h

theorem traceWithin_way {here there : Place} {rest : List String}
    (h : root.traceWithin b here rest = .ok there) : ∃ k, Way root false here rest k there := by
  induction b generalizing here rest there with
  | zero => cases h
  | succ b ih => exact trace_way (fun _ _ _ => ih) h

/-- What a place is settled to is found by a way from the root on. -/
theorem settle_way {place there : Place} (h : root.settle place = .ok there) :
    (∃ k, Way root false [] place k there) ∧ ∀ n ∈ there, IsPlain n := by
  obtain ⟨k, hw⟩ := traceWithin_way h
  exact ⟨⟨k, hw⟩, hw.plain (List.forall_mem_nil _)⟩

/-- A directory is reached through the directories above it, and through no link. -/
theorem way_at? {place : Place} {entries : List (String × FileTree)}
    (h : root.at? place = some (.directory entries)) (hplain : ∀ n ∈ place, IsPlain n) :
    Way root true [] place 0 place := by
  have hwalk := walk_at? (resolveWithin root 0) root [] place [] _ h (by simp) hplain
  rw [List.append_nil, List.nil_append] at hwalk
  have hwithin : root.resolveWithin 1 [] place = .ok place := hwalk
  obtain ⟨k, hk, hw⟩ := (resolveWithin_ok_iff [] place place).mp hwithin
  obtain rfl : k = 0 := by omega
  exact hw

/-- Two places lead to the same place, or both of them lead nowhere. -/
def SamePlace (root : FileTree) (a b : Place) : Prop :=
  ∀ there, root.resolve a = .ok there ↔ root.resolve b = .ok there

theorem resolve_append_iff {front rest : List String} {there : Place} :
    root.resolve (front ++ rest) = .ok there ↔
      ∃ i j mid, Way root true [] front i mid ∧ Way root true mid rest j there ∧
        i + j ≤ maxLinks := by
  rw [resolve_ok_iff]
  constructor
  · intro h
    obtain ⟨k, hk, hw⟩ := h
    obtain ⟨i, j, mid, hfront, hrest, rfl⟩ := hw.split
    exact ⟨i, j, mid, hfront, hrest, hk⟩
  · intro h
    obtain ⟨i, j, mid, hfront, hrest, hk⟩ := h
    exact ⟨i + j, hk, hfront.append hrest⟩

/-- A way that ends in an error on its first steps ends in it. -/
theorem walk_error_append {follow : Place → List String → Except SystemError Place}
    (hf : ∀ (here : Place) (front rest : List String) (e : SystemError),
      follow here front = .error e → follow here (front ++ rest) = .error e)
    {here : Place} {front : List String} {e : SystemError}
    (h : walk follow root here front = .error e) (rest : List String) :
    walk follow root here (front ++ rest) = .error e := by
  induction front generalizing here with
  | nil =>
    rw [walk] at h
    cases h
  | cons n front ih =>
    rw [List.cons_append]
    cases step_cases root here n with
    | stay hn hs =>
      rw [walk_stay hn hs] at h ⊢
      exact ih h
    | back hdir =>
      rw [walk_back hdir] at h ⊢
      exact ih h
    | enter hn hdir ht hl =>
      rw [walk_entry hdir hn ht hl] at h ⊢
      exact ih h
    | follow hn hdir ht =>
      rw [walk_link hn hdir ht] at h ⊢
      rw [← List.append_assoc]
      exact hf _ _ _ _ h
    | stop e' he =>
      rw [he] at h ⊢
      exact h

theorem resolve_error_append {front : Place} {e : SystemError}
    (h : root.resolve front = .error e) (rest : List String) :
    root.resolve (front ++ rest) = .error e := by
  have hwithin (b : Nat) : ∀ (here : Place) (front rest : List String) (e : SystemError),
      resolveWithin root b here front = .error e →
        resolveWithin root b here (front ++ rest) = .error e := by
    induction b with
    | zero => exact fun _ _ _ _ h => h
    | succ b ih => exact fun _ _ rest _ h => walk_error_append ih h rest
  exact hwithin _ [] front rest e h

/-- Below a directory only the links on the way down count. -/
theorem resolve_below_iff {directory : Place} {entries : List (String × FileTree)}
    (hd : root.at? directory = some (.directory entries))
    (hplain : ∀ n ∈ directory, IsPlain n)
    {rest : List String} {there : Place} :
    root.resolve (directory ++ rest) = .ok there ↔
      ∃ j ≤ maxLinks, Way root true directory rest j there := by
  have hdirectory := way_at? hd hplain
  rw [resolve_append_iff]
  constructor
  · intro h
    obtain ⟨i, j, mid, hfront, hrest, hk⟩ := h
    obtain ⟨rfl, rfl⟩ := hdirectory.unique hfront
    exact ⟨j, by omega, hrest⟩
  · intro h
    obtain ⟨j, hj, hrest⟩ := h
    exact ⟨0, j, directory, hdirectory, hrest, by omega⟩

/-- Names below a place lead where they lead below the directory that it is settled to, unless they
lead somewhere there and the way to the directory is not careful, or together they go through too
many links. -/
theorem samePlace_below_iff {place directory : Place} {entries : List (String × FileTree)}
    (hs : root.settle place = .ok directory) (hd : root.at? directory = some (.directory entries))
    (rest : List String) :
    root.SamePlace (place ++ rest) (directory ++ rest) ↔
      ∀ j there, Way root true directory rest j there → j ≤ maxLinks →
        ∃ i, Way root true [] place i directory ∧ i + j ≤ maxLinks := by
  obtain ⟨⟨_, hsettled⟩, hplain⟩ := settle_way hs
  have hplace (there : Place) : root.resolve (place ++ rest) = .ok there ↔
      ∃ i j, Way root true [] place i directory ∧ Way root true directory rest j there ∧
        i + j ≤ maxLinks := by
    rw [resolve_append_iff]
    constructor
    · intro h
      obtain ⟨i, j, mid, hfront, hrest, hk⟩ := h
      obtain ⟨-, rfl⟩ := hsettled.unique hfront
      exact ⟨i, j, hfront, hrest, hk⟩
    · intro h
      obtain ⟨i, j, hfront, hrest, hk⟩ := h
      exact ⟨i, j, directory, hfront, hrest, hk⟩
  constructor
  · intro hsame j there hw hj
    obtain ⟨i, j', hfront, hrest, hk⟩ :=
      (hplace there).mp ((hsame there).mpr ((resolve_below_iff hd hplain).mpr ⟨j, hj, hw⟩))
    obtain ⟨rfl, -⟩ := hrest.unique hw
    exact ⟨i, hfront, hk⟩
  · intro h there
    rw [hplace, resolve_below_iff hd hplain]
    constructor
    · intro hp
      obtain ⟨i, j, -, hrest, hk⟩ := hp
      exact ⟨j, by omega, hrest⟩
    · intro hb
      obtain ⟨j, hj, hrest⟩ := hb
      obtain ⟨i, hfront, hk⟩ := h j there hrest hj
      exact ⟨i, j, hfront, hrest, hk⟩

end CodeAudit.FileTree
