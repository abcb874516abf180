import CodeAudit.Proofs.Path.Climb
namespace CodeAudit.Path

section
variable (start goal : List String)

theorem common_prefix_start : common start goal <+: start := by
  induction start generalizing goal with
  | nil => exact List.nil_prefix
  | cons a start ih =>
    cases goal with
    | nil => exact List.nil_prefix
    | cons b goal =>
      rw [common]
      split
      · exact List.cons_prefix_cons.mpr ⟨rfl, ih goal⟩
      · exact List.nil_prefix

theorem common_prefix_goal : common start goal <+: goal := by
  induction start generalizing goal with
  | nil => exact List.nil_prefix
  | cons a start ih =>
    cases goal with
    | nil => exact List.nil_prefix
    | cons b goal =>
      rw [common]
      split
      · next h => exact List.cons_prefix_cons.mpr ⟨h, ih goal⟩
      · exact List.nil_prefix

end

section
variable {start goal : List String}

/-- What two lists have in front of them in common is the longest such list. -/
theorem prefix_common {front : List String} (hs : front <+: start) (hg : front <+: goal) :
    front <+: common start goal := by
  induction front generalizing start goal with
  | nil => exact List.nil_prefix
  | cons a front ih =>
    obtain ⟨more, rfl⟩ := hs
    obtain ⟨below, rfl⟩ := hg
    rw [List.cons_append, List.cons_append, common, if_pos rfl]
    exact List.cons_prefix_cons.mpr
      ⟨rfl, ih (List.prefix_append front more) (List.prefix_append front below)⟩

theorem length_common_le_start : (common start goal).length ≤ start.length :=
  (common_prefix_start start goal).length_le

theorem common_append_drop : common start goal ++ goal.drop (common start goal).length = goal :=
  List.prefix_iff_eq_append.mp (common_prefix_goal start goal)

end

theorem climbs_of_not_mem {names : List String} (hn : ".." ∉ names) : climbs names = 0 := by
  induction names with
  | nil => rfl
  | cons n rest ih =>
    obtain ⟨hne, hrest⟩ := not_or.mp (mt List.mem_cons.mpr hn)
    rw [climbs, if_neg (Ne.symm hne), ih hrest]

/-- Parent steps in front lead up, each by one directory. -/
theorem climbs_replicate_append (k : Nat) {names : List String} (hn : ".." ∉ names) :
    climbs (List.replicate k ".." ++ names) = k := by
  induction k with
  | zero => exact climbs_of_not_mem hn
  | succ k ih => rw [List.replicate_succ, List.cons_append, climbs, if_pos rfl, ih]

theorem settled_replicate_append (k : Nat) {names : List String} (hn : ".." ∉ names) :
    settled (List.replicate k ".." ++ names) = names := by
  induction k with
  | zero => exact settled_eq names hn
  | succ k ih => exact ih

theorem dots_not_mem_settleOnto {stack names : List String} (hs : ".." ∉ stack) :
    ".." ∉ settleOnto stack names := by
  induction names generalizing stack with
  | nil => exact hs
  | cons n rest ih =>
    rw [settleOnto]
    apply ih
    split
    · exact fun h => hs (List.mem_of_mem_drop h)
    · next hn => exact fun h => (List.mem_cons.mp h).elim (fun he => hn he.symm) hs

theorem dots_not_mem_settled (names : List String) : ".." ∉ settled names := by
  rw [settled, List.mem_reverse]
  exact dots_not_mem_settleOnto List.not_mem_nil

/-- The way from a directory leads to where it is meant to. -/
theorem settled_append_route (start : List String) {goal : List String} (hg : ".." ∉ goal) :
    settled (start ++ route (settled start) goal) = goal := by
  have hdown : ".." ∉ goal.drop (common (settled start) goal).length :=
    fun h => hg (List.mem_of_mem_drop h)
  rw [settled_append, route, climbs_replicate_append _ hdown, settled_replicate_append _ hdown,
    List.rdrop, Nat.sub_sub_self length_common_le_start,
    ← List.prefix_iff_eq_take.mp (common_prefix_start _ _)]
  exact common_append_drop

/-- Each name leads up or down by one directory at most. -/
theorem climbs_add_length_settled (names : List String) :
    climbs names + (settled names).length ≤ names.length := by
  rw [settled, List.length_reverse]
  induction names with
  | nil => exact Nat.le_refl 0
  | cons n rest ih =>
    rw [climbs, settleOnto, List.length_cons]
    by_cases hn : n = ".."
    · rw [if_pos hn, if_pos hn, List.drop_nil]
      omega
    · rw [if_neg hn, if_neg hn, settleOnto_climbs, List.length_append, List.length_drop,
        List.length_singleton]
      omega

/-- No names that lead from a directory to the same place are fewer than those on the way. -/
theorem length_route_le (start : List String) {goal names : List String}
    (h : settled (start ++ names) = goal) :
    (route (settled start) goal).length ≤ names.length := by
  have hlen := climbs_add_length_settled names
  rw [settled_append] at h
  have hleft : (settled start).rdrop (climbs names) <+: common (settled start) goal :=
    prefix_common (List.take_prefix _ _) (h ▸ List.prefix_append _ _)
  have hshared := hleft.length_le
  have hwhole := congrArg List.length h
  have hstart : (common (settled start) goal).length ≤ (settled start).length :=
    length_common_le_start
  have hgoal := (common_prefix_goal (settled start) goal).length_le
  rw [List.length_append, List.rdrop, List.length_take] at hwhole
  rw [List.rdrop, List.length_take] at hshared
  rw [route, List.length_append, List.length_replicate, List.length_drop]
  omega

section
variable (directory : Path) {file : String}

theorem mem_namesOf_ne_dot {cs : List Char} {n : String} (h : n ∈ namesOf cs) : n ≠ "." := by
  intro hdot
  have hkept := (List.mem_filter.mp h).2
  simp [hdot] at hkept

theorem mem_wayTo_ne_dot {n : String} (h : n ∈ wayTo directory file) : n ≠ "." := by
  rcases List.mem_append.mp h with h | h
  · obtain rfl := (List.mem_replicate.mp h).2
    decide
  · exact mem_namesOf_ne_dot (mem_settled (List.mem_of_mem_drop h))

/-- A file's text from the root on is read as a path with the names on the way to it. -/
theorem ofText_relativize (hf : file.toList.head? = some '/') :
    ofText (directory.relativize file) = ⟨.relative, wayTo directory file⟩ := by
  have hnames : ∀ n ∈ wayTo directory file, n ≠ "" ∧ n ≠ "." ∧ '/' ∉ n.toList := fun n hn =>
    ⟨(mem_wayTo hn).1, mem_wayTo_ne_dot directory hn, (mem_wayTo hn).2⟩
  rw [ofText, anchorOf_of_head (head_relativize_of_absolute directory hf),
    relativize_of_absolute directory hf, text_relative_cases]
  split
  · next hnone => rw [hnone]; rfl
  · rw [namesOf_intercalate_of_pieces _ hnames]

theorem reach_relativize (hf : file.toList.head? = some '/') :
    directory.reach (directory.relativize file) = settled (namesOf file.toList) := by
  rw [reach, ofText_relativize directory hf, join]
  exact settled_append_route directory.names (dots_not_mem_settled _)

end

/-- What is named from the root on is read from a directory as the way to it that has the fewest
names: up to the last directory that both are below, and down from there. -/
theorem relativize_shortest (directory : Path) (file : String)
    (hf : file.toList.head? = some '/') :
    let start := settled directory.names
    let goal := settled (namesOf file.toList)
    let way := ofText (directory.relativize file)
    way.anchor = .relative ∧ directory.relativize file = way.text ∧
    directory.reach (directory.relativize file) = goal ∧
    (∃ shared up down, start = shared ++ up ∧ goal = shared ++ down ∧
      (∀ front, front <+: start → front <+: goal → front <+: shared) ∧
      way.names = List.replicate (start.length - shared.length) ".." ++ down ∧ ".." ∉ down) ∧
    (∀ down, goal = start ++ down → down ≠ [] →
      directory.relativize file = "/".intercalate down) ∧
    (goal = start → directory.relativize file = ".") ∧
    (¬ start <+: goal → way.names.head? = some "..") ∧
    ∀ other : String, other.toList.head? ≠ some '/' → directory.reach other = goal →
      way.names.length ≤ (namesOf other.toList).length := by
  intro start goal way
  have hway : way = ⟨.relative, route start goal⟩ := ofText_relativize directory hf
  have htext : directory.relativize file = (Path.mk .relative (route start goal)).text :=
    relativize_of_absolute directory hf
  obtain ⟨up, hup⟩ := common_prefix_start start goal
  have hlen : start.length = (common start goal).length + up.length := by
    rw [← List.length_append, hup]
  refine ⟨congrArg anchor hway, hway ▸ htext, reach_relativize directory hf, ?_, ?_, ?_, ?_, ?_⟩
  · refine ⟨common start goal, up, goal.drop (common start goal).length, hup.symm,
      common_append_drop.symm, fun front => prefix_common, congrArg names hway, ?_⟩
    exact fun h => dots_not_mem_settled _ (List.mem_of_mem_drop h)
  · intro down hbelow hne
    rw [htext, hbelow, route_append, text_relative_cases, if_neg hne]
  · intro hsame
    have hnone : route start goal = [] := by
      rw [hsame]
      exact (congrArg (route start) (List.append_nil start).symm).trans (route_append start [])
    rw [htext, hnone]
    rfl
  · intro hout
    have hpos : 0 < up.length := by
      refine List.length_pos_iff.mpr fun hnil => hout ?_
      rw [← hup, hnil, List.append_nil]
      exact common_prefix_goal start goal
    obtain ⟨k, hk⟩ := Nat.exists_eq_add_of_lt hpos
    have hsteps : start.length - (common start goal).length = k + 1 := by omega
    rw [hway, route, hsteps]
    rfl
  · intro other hrelative hreach
    rw [reach_of_relative directory hrelative] at hreach
    rw [hway]
    exact length_route_le directory.names hreach

/-- From below a sibling, with steps up written out and slashes doubled on either side. -/
theorem relativize_shortest_sibling :
    let directory := ofText "/repo/./src//web/old/.."
    let file := "//repo/lib/../lib/./a.py"
    file.toList.head? = some '/' ∧ directory.relativize file = "../../lib/a.py" ∧
      directory.reach "../../lib/a.py" = ["repo", "lib", "a.py"] ∧
      ∀ other : String, other.toList.head? ≠ some '/' →
        directory.reach other = ["repo", "lib", "a.py"] → 4 ≤ (namesOf other.toList).length := by
  intro directory file
  have hfile : file.toList.head? = some '/' := by decide
  have htext : directory.relativize file = "../../lib/a.py" := by decide
  have hgoal : settled (namesOf file.toList) = ["repo", "lib", "a.py"] := by decide
  have hway : (ofText (directory.relativize file)).names.length = 4 := by
    rw [htext]
    decide
  obtain ⟨-, -, hreach, -, -, -, -, hfewest⟩ := relativize_shortest directory file hfile
  rw [htext, hgoal] at hreach
  rw [hgoal, hway] at hfewest
  exact ⟨hfile, htext, hreach, hfewest⟩

end CodeAudit.Path
