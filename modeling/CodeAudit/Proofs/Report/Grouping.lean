import CodeAudit.Proofs.Registry.Distinct
import CodeAudit.Proofs.Report.Count
namespace CodeAudit

section
variable {α : Type} {le : α → α → Bool}

/-- Whether an order leaves open which of two comes first. -/
def tied (le : α → α → Bool) (a b : α) : Bool := le a b && le b a

theorem tied_self (total : ∀ a b, (le a b || le b a) = true) (a : α) : tied le a a = true := by
  have h := total a a
  rw [Bool.or_self] at h
  rw [tied, h, Bool.and_self]

/-- A sorted list is known from its ties, each in the order of the list. -/
theorem eq_of_filter_tied (total : ∀ a b, (le a b || le b a) = true) {xs ys : List α}
    (hx : xs.Pairwise (le · ·)) (hy : ys.Pairwise (le · ·))
    (hf : ∀ a, xs.filter (tied le a) = ys.filter (tied le a)) : xs = ys := by
  have hmem (zs zs' : List α) (h : ∀ a, zs.filter (tied le a) = zs'.filter (tied le a)) (a : α)
      (ha : a ∈ zs) : a ∈ zs' := by
    have hkept : a ∈ zs.filter (tied le a) := List.mem_filter.mpr ⟨ha, tied_self total a⟩
    rw [h a] at hkept
    exact (List.mem_filter.mp hkept).1
  induction xs generalizing ys with
  | nil =>
    symm
    apply List.eq_nil_iff_forall_not_mem.mpr
    intro a ha
    exact List.not_mem_nil (hmem ys [] (fun b => (hf b).symm) a ha)
  | cons x xs ih =>
    cases ys with
    | nil => exact absurd (hmem _ _ hf x List.mem_cons_self) List.not_mem_nil
    | cons y ys =>
      have hrefl (a : α) : le a a = true := (Bool.and_eq_true _ _ ▸ tied_self total a).1
      have hxy : le x y = true := by
        have hyin : y ∈ x :: xs := hmem _ _ (fun a => (hf a).symm) y List.mem_cons_self
        rcases List.mem_cons.mp hyin with rfl | hyin
        · exact hrefl y
        · exact List.rel_of_pairwise_cons hx hyin
      have hyx : le y x = true := by
        have hxin : x ∈ y :: ys := hmem _ _ hf x List.mem_cons_self
        rcases List.mem_cons.mp hxin with rfl | hxin
        · exact hrefl x
        · exact List.rel_of_pairwise_cons hy hxin
      have hheads := hf x
      have hty : tied le x y = true := by rw [tied, hxy, hyx, Bool.and_self]
      rw [List.filter_cons_of_pos (tied_self total x), List.filter_cons_of_pos hty] at hheads
      obtain rfl := (List.cons.inj hheads).1
      have hrest : xs = ys := by
        apply ih hx.of_cons hy.of_cons
        intro a
        have ha := hf a
        rw [List.filter_cons, List.filter_cons] at ha
        split at ha
        · exact (List.cons.inj ha).2
        · exact ha
      rw [hrest]

/-- Sorting leaves what is tied in its order. -/
theorem filter_mergeSort (trans : ∀ a b c, le a b = true → le b c = true → le a c = true)
    (total : ∀ a b, (le a b || le b a) = true) {p : α → Bool}
    (hp : ∀ a b, p a = true → p b = true → le a b = true) (xs : List α) :
    (xs.mergeSort le).filter p = xs.filter p := by
  have hsorted : (xs.filter p).Pairwise (le · ·) := by
    apply List.pairwise_of_forall_mem_list
    intro a ha b hb
    exact hp a b (List.mem_filter.mp ha).2 (List.mem_filter.mp hb).2
  have hsub := (List.sublist_mergeSort trans total hsorted List.filter_sublist).filter p
  rw [List.filter_filter] at hsub
  simp only [Bool.and_self] at hsub
  exact (hsub.eq_of_length ((List.mergeSort_perm xs le).filter p).length_eq.symm).symm

/-- Where at most one of different items yields anything, only that one counts. -/
theorem flatMap_eq_of_nodup {β : Type} [DecidableEq α] {items : List α} (hn : items.Nodup)
    (f : α → List β) (k : α) (hf : ∀ a, a ≠ k → f a = []) :
    items.flatMap f = if k ∈ items then f k else [] := by
  induction items with
  | nil => rfl
  | cons a rest ih =>
    obtain ⟨ha, hrest⟩ := List.nodup_cons.mp hn
    rw [List.flatMap_cons, ih hrest]
    by_cases h : a = k
    · subst h
      simp [ha]
    · simp [hf a h, Ne.symm h]

end

namespace Report.Markdown

/-- Whether a finding stands no later than another: by file, and then by line. -/
def noLater (f g : Finding) : Bool :=
  if f.file = g.file then decide (f.line ≤ g.line) else Text.atMost f.file.toList g.file.toList

theorem noLater_total (f g : Finding) : (noLater f g || noLater g f) = true := by
  unfold noLater
  by_cases h : f.file = g.file
  · rw [if_pos h, if_pos h.symm]
    simpa using Int.le_total f.line g.line
  · rw [if_neg h, if_neg (Ne.symm h)]
    simpa using Text.atMost_total f.file.toList g.file.toList

theorem noLater_trans (e f g : Finding) (hef : noLater e f = true) (hfg : noLater f g = true) :
    noLater e g = true := by
  unfold noLater at *
  by_cases h : e.file = f.file
  · rw [if_pos h] at hef
    rw [h]
    split at hfg
    · next h' =>
      rw [if_pos h']
      simp only [decide_eq_true_eq] at hef hfg ⊢
      exact Int.le_trans hef hfg
    · next h' =>
      rw [if_neg h']
      exact hfg
  · rw [if_neg h] at hef
    split at hfg
    · next h' =>
      rw [← h', if_neg h]
      exact hef
    · next h' =>
      have hne : e.file ≠ g.file := by
        intro hsame
        rw [← hsame] at hfg
        exact h (String.toList_inj.mp (Text.atMost_antisymm hef hfg))
      rw [if_neg hne]
      exact Text.atMost_trans _ _ _ hef hfg

theorem tied_noLater (f g : Finding) :
    tied noLater f g = (g.file == f.file && g.line == f.line) := by
  rw [Bool.eq_iff_iff]
  simp only [tied, noLater, Bool.and_eq_true, beq_iff_eq]
  by_cases h : f.file = g.file
  · rw [if_pos h, if_pos h.symm]
    simp only [decide_eq_true_eq, h, true_and]
    omega
  · rw [if_neg h, if_neg (Ne.symm h)]
    constructor
    · intro hboth
      exact absurd (String.toList_inj.mp (Text.atMost_antisymm hboth.1 hboth.2)) h
    · intro hsame
      exact absurd hsame.1.symm h

variable (fs : List Finding)

theorem inFile_sorted (file : String) : (inFile fs file).Pairwise fun f g => f.line ≤ g.line := by
  have hsorted : (inFile fs file).Pairwise fun f g => decide (f.line ≤ g.line) = true := by
    apply List.pairwise_mergeSort
    · intro e f g hef hfg
      simp only [decide_eq_true_eq] at hef hfg ⊢
      exact Int.le_trans hef hfg
    · intro f g
      simpa using Int.le_total f.line g.line
  exact hsorted.imp of_decide_eq_true

/-- Findings on one line of a file stay in their order. -/
theorem filter_inFile (file : String) (line : Int) :
    (inFile fs file).filter (·.line == line) =
      fs.filter fun f => f.file == file && f.line == line := by
  rw [inFile, filter_mergeSort, List.filter_filter]
  · congr 1
    funext f
    exact Bool.and_comm _ _
  · intro e f g hef hfg
    simp only [decide_eq_true_eq] at hef hfg ⊢
    exact Int.le_trans hef hfg
  · intro f g
    simpa using Int.le_total f.line g.line
  · intro f g hf hg
    rw [beq_iff_eq] at hf hg
    simp [hf, hg]

/-- File by file and line by line, findings come in the order of one stable sort. -/
theorem flatMap_inFile : (files fs).flatMap (inFile fs) = fs.mergeSort noLater := by
  apply eq_of_filter_tied noLater_total
  · apply List.pairwise_flatMap.mpr
    constructor
    · intro file _
      apply (inFile_sorted fs file).imp_of_mem
      intro f g hf hg hline
      have hfile : f.file = g.file :=
        ((mem_inFile fs file f).mp hf).2.trans ((mem_inFile fs file g).mp hg).2.symm
      rw [noLater, if_pos hfile]
      exact decide_eq_true hline
    · have hsorted := Registry.sortedDistinct_sorted (fs.map (·.file))
      have hnodup := Registry.sortedDistinct_nodup (fs.map (·.file))
      apply (hsorted.and hnodup).imp
      intro a b hab f hf g hg
      obtain ⟨hle, hne⟩ := hab
      obtain rfl := ((mem_inFile fs a f).mp hf).2
      obtain rfl := ((mem_inFile fs b g).mp hg).2
      rw [noLater, if_neg hne]
      exact hle
  · exact List.pairwise_mergeSort noLater_trans noLater_total fs
  · intro f
    have htied : tied noLater f = fun g => g.file == f.file && g.line == f.line :=
      funext (tied_noLater f)
    have hties (g g' : Finding) (hg : tied noLater f g = true) (hg' : tied noLater f g' = true) :
        noLater g g' = true :=
      noLater_trans g f g' (Bool.and_eq_true_iff.mp hg).2 (Bool.and_eq_true_iff.mp hg').1
    rw [filter_mergeSort noLater_trans noLater_total hties, htied, List.filter_flatMap]
    have hother (file : String) (hfile : file ≠ f.file) :
        (inFile fs file).filter (fun g => g.file == f.file && g.line == f.line) = [] := by
      apply List.filter_eq_nil_iff.mpr
      intro g hg
      have hin := ((mem_inFile fs file g).mp hg).2
      simp [hin, hfile]
    have hnodup : (files fs).Nodup := Registry.sortedDistinct_nodup _
    rw [flatMap_eq_of_nodup hnodup _ f.file hother]
    split
    · rw [← filter_inFile fs f.file f.line]
      apply List.filter_congr
      intro g hg
      have hin := ((mem_inFile fs f.file g).mp hg).2
      simp [hin]
    · next hnone =>
      symm
      apply List.filter_eq_nil_iff.mpr
      intro g hg hsame
      have hfile := (Bool.and_eq_true_iff.mp hsame).1
      exact hnone ((mem_files fs f.file).mpr ⟨g, hg, beq_iff_eq.mp hfile⟩)

def isHeading (line : String) : Bool := "### \x60".toList.isPrefixOf line.toList

def isBullet (line : String) : Bool := "- **[".toList.isPrefixOf line.toList

theorem isHeading_heading (file : String) : isHeading (heading file) = true := by
  simp [isHeading, heading, List.isPrefixOf]

theorem isBullet_heading (file : String) : isBullet (heading file) = false := by
  simp [isBullet, heading, List.isPrefixOf]

theorem isHeading_bulletLine (f : Finding) : isHeading (bulletLine f) = false := by
  simp [isHeading, bulletLine, List.isPrefixOf]

theorem isBullet_bulletLine (f : Finding) : isBullet (bulletLine f) = true := by
  simp [isBullet, bulletLine, List.isPrefixOf]

theorem fileLines_bullets (file : String) :
    (fileLines fs file).filter isBullet = (inFile fs file).map bulletLine := by
  have hall : ((inFile fs file).map bulletLine).filter isBullet =
      (inFile fs file).map bulletLine := by
    apply List.filter_eq_self.mpr
    intro line hline
    obtain ⟨f, -, rfl⟩ := List.mem_map.mp hline
    exact isBullet_bulletLine f
  have hheading := isBullet_heading file
  have hblank : isBullet "" = false := by simp [isBullet]
  rw [fileLines]
  simp [List.filter_append, hall, hheading, hblank]

theorem fileLines_headings (file : String) :
    (fileLines fs file).filter isHeading = [heading file] := by
  have hnone : ((inFile fs file).map bulletLine).filter isHeading = [] := by
    apply List.filter_eq_nil_iff.mpr
    intro line hline
    obtain ⟨f, -, rfl⟩ := List.mem_map.mp hline
    simp [isHeading_bulletLine f]
  have hheading := isHeading_heading file
  have hblank : isHeading "" = false := by simp [isHeading]
  rw [fileLines]
  simp [List.filter_append, hnone, hheading, hblank]

theorem findingsLines_bullets :
    (findingsLines fs).filter isBullet = (fs.mergeSort noLater).map bulletLine := by
  have htitle : isBullet (title fs.length) = false := by simp [isBullet, title, List.isPrefixOf]
  have hblank : isBullet "" = false := by simp [isBullet]
  rw [findingsLines, List.filter_cons_of_neg (by simp [htitle]),
    List.filter_cons_of_neg (by simp [hblank]), List.filter_flatMap, ← flatMap_inFile,
    List.map_flatMap]
  simp only [fileLines_bullets]

theorem findingsLines_headings :
    (findingsLines fs).filter isHeading = (files fs).map heading := by
  have htitle : isHeading (title fs.length) = false := by simp [isHeading, title, List.isPrefixOf]
  have hblank : isHeading "" = false := by simp [isHeading]
  rw [findingsLines, List.filter_cons_of_neg (by simp [htitle]),
    List.filter_cons_of_neg (by simp [hblank]), List.filter_flatMap]
  simp only [fileLines_headings]
  exact List.map_eq_flatMap.symm

/-- The section over findings whose numbers can be written prints each of them once, in the order of
a stable sort by file and line, and each under the one heading of its file. -/
theorem findingsSection_sorted (hfs : ∀ f ∈ fs, f.Legible) :
    ∃ (printed : List String) (groups : List (String × List Finding)),
      findingsSection fs = .ok printed ∧ (∀ f ∈ fs, bullet f = .ok (bulletLine f)) ∧
      printed = title fs.length :: "" ::
        groups.flatMap (fun g => heading g.1 :: "" :: (g.2.map bulletLine ++ [""])) ∧
      groups.flatMap (·.2) = fs.mergeSort noLater ∧
      printed.filter isBullet = (fs.mergeSort noLater).map bulletLine ∧
      printed.filter isHeading = groups.map (fun g => heading g.1) ∧
      (groups.map (·.1)).Pairwise (fun a b => Text.Precedes a.toList b.toList) ∧
      (∀ file, file ∈ groups.map (·.1) ↔ ∃ f ∈ fs, f.file = file) ∧
      ∀ g ∈ groups, (∀ f ∈ g.2, f.file = g.1) ∧ g.2.Pairwise (fun a b => a.line ≤ b.line) ∧
        ∀ line, g.2.filter (·.line == line) =
          fs.filter fun f => f.file == g.1 && f.line == line := by
  let groups := (files fs).map fun file => (file, inFile fs file)
  have hnames : groups.map (·.1) = files fs := by
    rw [List.map_map]
    exact List.map_id (files fs)
  have hbullets : ∀ f ∈ fs, bullet f = .ok (bulletLine f) :=
    fun f hf => (prints_bullet f).answers (hfs f hf)
  refine ⟨findingsLines fs, groups, (prints_findingsSection fs).answers hfs, hbullets, ?_, ?_,
    findingsLines_bullets fs, ?_, ?_, ?_, ?_⟩
  · rw [findingsLines, List.flatMap_map]
    rfl
  · rw [List.flatMap_map]
    exact flatMap_inFile fs
  · rw [findingsLines_headings, ← hnames, List.map_map]
    rfl
  · rw [hnames]
    exact Registry.sortedDistinct_increasing _
  · intro file
    rw [hnames]
    exact mem_files fs file
  · intro g hg
    obtain ⟨file, -, rfl⟩ := List.mem_map.mp hg
    refine ⟨?_, inFile_sorted fs file, filter_inFile fs file⟩
    intro f hf
    exact ((mem_inFile fs file f).mp hf).2

/-- Two findings, of which the later in the list stands in the earlier file. -/
def crossedFindings : List Finding :=
  [{ file := "b.py", line := 1, rule := "r", message := "m" },
   { file := "a.py", line := 2, col := some 3, rule := "r", message := "m" }]

theorem findingsSection_sorted_crossed : ∃ printed,
    findingsSection crossedFindings = .ok printed ∧
      printed.head? = some "## Findings (2 issues)" ∧ "### \x60a.py\x60" ∈ printed ∧
      "- **[LINTER]** \x60r\x60 m (line 2, col 3)" ∈ printed := by
  have hlegible : ∀ f ∈ crossedFindings, f.Legible := by
    have hdigit (n : Nat) (hn : n < 10) : Json.Legible (.int n) := Json.legible_digit (by omega)
    intro f hf
    rcases List.mem_pair.mp hf with rfl | rfl
    · exact ⟨hdigit 1 (by decide), by simp⟩
    · exact ⟨hdigit 2 (by decide), by simpa using hdigit 3 (by decide)⟩
  obtain ⟨printed, groups, hsection, -, hprinted, -, hbullets, hheadings, -, hfiles, -⟩ :=
    findingsSection_sorted crossedFindings hlegible
  let f : Finding := { file := "a.py", line := 2, col := some 3, rule := "r", message := "m" }
  have hf : f ∈ crossedFindings := List.mem_cons_of_mem _ (List.mem_singleton_self f)
  refine ⟨printed, hsection, ?_, ?_, ?_⟩
  · rw [hprinted]
    rfl
  · obtain ⟨g, hg, hname⟩ := List.mem_map.mp ((hfiles "a.py").mpr ⟨f, hf, rfl⟩)
    have hheading : heading g.1 ∈ printed.filter isHeading := by
      rw [hheadings]
      exact List.mem_map_of_mem hg
    rw [hname] at hheading
    exact (List.mem_filter.mp hheading).1
  · have hline : bulletLine f = "- **[LINTER]** \x60r\x60 m (line 2, col 3)" := by decide
    have hbullet : bulletLine f ∈ printed.filter isBullet := by
      rw [hbullets]
      exact List.mem_map_of_mem (List.mem_mergeSort.mpr hf)
    rw [hline] at hbullet
    exact (List.mem_filter.mp hbullet).1

/-- A finding on a line whose number is too long to be written. -/
def endlessFinding : Finding :=
  { file := "a.py", line := Nat.pow 10 Text.maxIntegerDigits, rule := "r", message := "m" }

theorem endlessFinding_not_legible : ¬ endlessFinding.Legible := by
  intro h
  have hline := h.line
  rw [Json.Legible, endlessFinding, Int.natAbs_natCast, Decimal.digitCount,
    Nat.length_toDigits_le_iff (by decide) (by decide)] at hline
  generalize Text.maxIntegerDigits = digits at hline
  exact Nat.lt_irrefl _ hline

/-- A finding whose line is too long to be written is not printed at all. -/
theorem findingsSection_endless : findingsSection [endlessFinding] = .error .numberUnwritable :=
  (prints_findingsSection _).refuses fun h => endlessFinding_not_legible (h _ List.mem_cons_self)

end Report.Markdown
end CodeAudit
