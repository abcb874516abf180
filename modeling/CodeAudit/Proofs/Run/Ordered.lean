import CodeAudit.Proofs.Run.Killed
namespace CodeAudit

/-- Nothing is tried after a command that is overdue, or whose limit is a number that cannot be
waited for. -/
theorem Ending.stops_iff {ending : Ending} : ending.stops = true ↔
    ending = .overdue ∨ ∃ problem, problem ≠ .notNumber ∧ ending = .notAwaited problem := by
  cases ending with
  | exited r => simp [stops]
  | overdue => simp [stops]
  | notStarted cause => simp [stops]
  | notAwaited problem => simp [stops]

namespace Host
variable (h : Host) {a : Analyzer} {r : Request} {o : RunOptions} {w : World} {limit : Double}

/-- The commands that tidy up before a run. -/
def tidying (a : Analyzer) (r : Request) (o : RunOptions) : Except Fault (List Command) :=
  if o.fix then a.preFix r else .ok []

theorem tidied_cons (limit : Double) (c : Command) (rest : List Command) (w : World) :
    (h.tidied limit (c :: rest) w).1 =
      if (h.ending limit c w).stops then [(c, h.ending limit c w)]
      else (c, h.ending limit c w) :: (h.tidied limit rest (h.after limit c w)).1 := by
  rw [tidied]
  split
  · rfl
  · rfl

/-- Commands are tried in order, from the first on. -/
theorem tidied_commands (limit : Double) (commands : List Command) (w : World) :
    (h.tidied limit commands w).1.map (·.1) <+: commands := by
  induction commands generalizing w with
  | nil => exact List.nil_prefix
  | cons c rest ih =>
    rw [tidied_cons]
    split
    · exact List.cons_prefix_cons.mpr ⟨rfl, List.nil_prefix⟩
    · exact List.cons_prefix_cons.mpr ⟨rfl, ih _⟩

/-- Only the last command that is tried can stop what comes after it. -/
theorem tidied_dropLast (limit : Double) (commands : List Command) (w : World) :
    ∀ t ∈ (h.tidied limit commands w).1.dropLast, t.2.stops = false := by
  induction commands generalizing w with
  | nil => simp [tidied]
  | cons c rest ih =>
    rw [tidied_cons]
    split
    · simp
    · next hgoes =>
      cases hrest : (h.tidied limit rest (h.after limit c w)).1 with
      | nil => simp
      | cons t ts =>
        have hlater := ih (h.after limit c w)
        rw [hrest] at hlater
        rw [List.dropLast_cons_cons, List.forall_mem_cons]
        exact ⟨by simpa using hgoes, hlater⟩

/-- Commands of which none stops what comes after it are all tried. -/
theorem tidied_all (limit : Double) (commands : List Command) (w : World)
    (ht : ∀ t ∈ (h.tidied limit commands w).1, t.2.stops = false) :
    (h.tidied limit commands w).1.map (·.1) = commands := by
  induction commands generalizing w with
  | nil => rfl
  | cons c rest ih =>
    rw [tidied_cons] at ht ⊢
    split at ht
    · next hstops =>
      have hgoes := ht _ (List.mem_singleton_self _)
      rw [hstops] at hgoes
      cases hgoes
    · next hgoes =>
      rw [if_neg hgoes, List.map_cons, ih _ (List.forall_mem_cons.mp ht).2]

theorem tidied_endings (limit : Double) (commands : List Command) (w : World) :
    ∀ t ∈ (h.tidied limit commands w).1, ∃ u, t.2 = h.ending limit t.1 u := by
  induction commands generalizing w with
  | nil => simp [tidied]
  | cons c rest ih =>
    rw [tidied_cons]
    split
    · exact List.forall_mem_singleton.mpr ⟨w, rfl⟩
    · exact List.forall_mem_cons.mpr ⟨⟨w, rfl⟩, ih _⟩

/-- A limit is not waited for only if it cannot be. -/
theorem ending_notAwaited {c : Command} {problem : LimitProblem}
    (he : h.ending limit c w = .notAwaited problem) : limitProblem? limit = some problem := by
  unfold ending at he
  split at he
  · cases he
  · cases hl : limitProblem? limit with
    | some p =>
      rw [hl] at he
      cases he
      rfl
    | none =>
      rw [hl] at he
      dsimp only at he
      split at he
      · cases he
      · cases he

/-- The ways that a course can take. -/
theorem course_cases (a : Analyzer) (r : Request) (o : RunOptions) (w : World) :
    (∃ f, tidying a r o = .error f ∧ h.course a r o w = { raised := some f }) ∨
      ∃ commands, tidying a r o = .ok commands ∧
        let t := (h.tidied o.timeout commands w).1
        ((∃ e ∈ t, e.2.stops = true) ∧ h.course a r o w = { tidied := t } ∨
          (∀ e ∈ t, e.2.stops = false) ∧
            ((∃ f, a.build r = .error f ∧ h.course a r o w = { tidied := t, raised := some f }) ∨
              ∃ c, a.build r = .ok c ∧ h.course a r o w =
                h.courseFrom a r o.timeout t c (h.tidied o.timeout commands w).2)) := by
  rw [course]
  cases hpre : (if o.fix then a.preFix r else .ok [] : Except Fault (List Command)) with
  | error f => exact .inl ⟨f, hpre, rfl⟩
  | ok commands =>
    refine .inr ⟨commands, hpre, ?_⟩
    dsimp only
    by_cases hany : (h.tidied o.timeout commands w).1.any (·.2.stops) = true
    · rw [if_pos hany]
      exact .inl ⟨List.any_eq_true.mp hany, rfl⟩
    · rw [if_neg hany]
      refine .inr ⟨by simpa using hany, ?_⟩
      cases hb : a.build r with
      | error f => exact .inl ⟨f, rfl, rfl⟩
      | ok c => exact .inr ⟨c, rfl, rfl⟩

end Host

/-- A course that keeps to the order of an analyzer's commands: those that tidy up, one after the
other up to the first that stops the course, and the analyzer's own one if none does. Where the
analyzer raises something, nothing more is tried. -/
structure Course.Ordered (h : Host) (a : Analyzer) (r : Request) (o : RunOptions) (c : Course) :
    Prop where
  refused : ∀ f, Host.tidying a r o = .error f → c.tried = [] ∧ c.raised = some f
  inTurn : ∀ commands, Host.tidying a r o = .ok commands →
    c.tidied.map (·.1) <+: commands ∧ (∀ t ∈ c.tidied.dropLast, t.2.stops = false) ∧
      ((∃ t ∈ c.tidied, t.2.stops = true) ∧ c.own = none ∨
        (∀ t ∈ c.tidied, t.2.stops = false) ∧ c.tidied.map (·.1) = commands ∧
          ((∃ f, a.build r = .error f ∧ c.own = none ∧ c.raised = some f) ∨
            ∃ command ending, a.build r = .ok command ∧ c.own = some (command, ending)))
  stopping : ∀ t ∈ c.tried, t.2.stops = true → t.2 = .overdue ∨ ∃ problem,
    problem ≠ .notNumber ∧ Host.limitProblem? o.timeout = some problem ∧
      t.2 = .notAwaited problem
  reading : ∀ command reaction, c.own = some (command, .exited reaction) →
    ∃ v, v.files = reaction.files ∧ match a.read (h.output r reaction v) with
      | .ok reading => c.reading = some reading
      | .error f => c.raised = some f

theorem Course.Ordered.withStuck {h : Host} {a : Analyzer} {r : Request} {o : RunOptions}
    {c : Course} (hc : c.Ordered h a r o) (stuck : Option Fault) :
    (c.withStuck stuck).Ordered h a r o :=
  ⟨hc.refused, hc.inTurn, hc.stopping, hc.reading⟩

namespace Host
variable (h : Host) {a : Analyzer} {r : Request} {o : RunOptions} {w : World} {limit : Double}

theorem courseFrom_reading {tidied : List (Command × Ending)} {c command : Command}
    {reaction : Reaction}
    (hown : (h.courseFrom a r limit tidied c w).own = some (command, .exited reaction)) :
    ∃ v, v.files = reaction.files ∧ match a.read (h.output r reaction v) with
      | .ok reading => (h.courseFrom a r limit tidied c w).reading = some reading
      | .error f => (h.courseFrom a r limit tidied c w).raised = some f := by
  have he : h.ending limit c w = .exited reaction := by
    rw [(h.courseFrom_own a r limit tidied c w).2] at hown
    exact (Prod.mk.inj (Option.some.inj hown)).2
  refine ⟨h.after limit c w, h.after_files he, ?_⟩
  rw [courseFrom, he]
  dsimp only
  cases a.read (h.output r reaction (h.after limit c w)) with
  | error f => rfl
  | ok reading => rfl

theorem stopping_of_ending {c : Command} {ending : Ending}
    (he : ∃ u, ending = h.ending limit c u) (hs : ending.stops = true) :
    ending = .overdue ∨ ∃ problem, problem ≠ .notNumber ∧ limitProblem? limit = some problem ∧
      ending = .notAwaited problem := by
  obtain ⟨u, hu⟩ := he
  rcases Ending.stops_iff.mp hs with hover | ⟨problem, hp, hnot⟩
  · exact .inl hover
  · exact .inr ⟨problem, hp, h.ending_notAwaited (hu.symm.trans hnot), hnot⟩

/-- A course in which some commands tidied up keeps to the order if it goes on as it should. -/
private theorem ordered_of_tidied {commands : List Command} {c : Course}
    (hpre : tidying a r o = .ok commands)
    (htidied : c.tidied = (h.tidied o.timeout commands w).1)
    (hown : ∀ t ∈ c.own, ∃ u, t.2 = h.ending o.timeout t.1 u)
    (hgoes : (∃ t ∈ c.tidied, t.2.stops = true) ∧ c.own = none ∨
      (∀ t ∈ c.tidied, t.2.stops = false) ∧
        ((∃ f, a.build r = .error f ∧ c.own = none ∧ c.raised = some f) ∨
          ∃ command ending, a.build r = .ok command ∧ c.own = some (command, ending)))
    (hreading : ∀ command reaction, c.own = some (command, .exited reaction) →
      ∃ v, v.files = reaction.files ∧ match a.read (h.output r reaction v) with
        | .ok reading => c.reading = some reading
        | .error f => c.raised = some f) : c.Ordered h a r o := by
  have hendings := h.tidied_endings o.timeout commands w
  have hall := h.tidied_all o.timeout commands w
  rw [← htidied] at hendings hall
  refine ⟨fun f hf => ?_, fun others hothers => ?_, fun t ht hs => ?_, hreading⟩
  · rw [hpre] at hf
    cases hf
  · rw [hpre] at hothers
    cases hothers
    refine ⟨htidied ▸ h.tidied_commands o.timeout commands w,
      htidied ▸ h.tidied_dropLast o.timeout commands w, ?_⟩
    exact hgoes.imp_right fun ⟨hnone, hnext⟩ => ⟨hnone, hall hnone, hnext⟩
  · rcases List.mem_append.mp ht with ht | ht
    · exact h.stopping_of_ending (hendings t ht) hs
    · exact h.stopping_of_ending (hown t (Option.mem_toList.mp ht)) hs

theorem course_ordered (a : Analyzer) (r : Request) (o : RunOptions) (w : World) :
    (h.course a r o w).Ordered h a r o := by
  rcases h.course_cases a r o w with ⟨f, hpre, hc⟩ | ⟨commands, hpre, hrest⟩
  · rw [hc]
    refine ⟨fun f' hf' => ?_, fun commands hcommands => ?_, by simp [Course.tried], by simp⟩
    · rw [hpre] at hf'
      cases hf'
      exact ⟨rfl, rfl⟩
    · rw [hpre] at hcommands
      cases hcommands
  · rcases hrest with ⟨hstops, hc⟩ | ⟨hgoes, ⟨f, hb, hc⟩ | ⟨c, hb, hc⟩⟩
    · rw [hc]
      exact h.ordered_of_tidied hpre rfl (by simp) (.inl ⟨hstops, rfl⟩) (by simp)
    · rw [hc]
      exact h.ordered_of_tidied hpre rfl (by simp) (.inr ⟨hgoes, .inl ⟨f, hb, rfl, rfl⟩⟩) (by simp)
    · rw [hc]
      obtain ⟨htidied, hown⟩ := h.courseFrom_own a r o.timeout (h.tidied o.timeout commands w).1 c
        (h.tidied o.timeout commands w).2
      refine h.ordered_of_tidied hpre htidied ?_ (.inr ⟨?_, .inr ⟨c, _, hb, hown⟩⟩)
        fun command reaction => h.courseFrom_reading
      · rw [hown]
        intro t ht
        cases ht
        exact ⟨_, rfl⟩
      · rw [htidied]
        exact hgoes

end Host
end CodeAudit
