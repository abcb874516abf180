import CodeAudit.Proofs.Process.Ending
namespace CodeAudit

/-- What happens when an analyzer is run: the commands that are tried before its own, its own one
if that is come to, each with what becomes of it, and then what it raises or reads. -/
structure Course where
  tidied : List (Command × Ending) := []
  own : Option (Command × Ending) := none
  raised : Option Fault := none
  reading : Option Reading := none
  /-- Why the scratch directory cannot be taken away in the end. -/
  stuck : Option Fault := none

namespace Course

/-- The course with what became of its scratch directory in the end. -/
def withStuck (c : Course) (stuck : Option Fault) : Course := { c with stuck }

/-- The commands that were tried, in order. -/
def tried (c : Course) : List (Command × Ending) := c.tidied ++ c.own.toList

/-- The ways in which a course can end: it is stopped, the analyzer's own command fails otherwise,
or the analyzer raises or reads something. -/
def Ended (c : Course) : Prop :=
  (∃ t ∈ c.tried, t.2.stops = true) ∨
    (∃ command, c.own = some (command, .notAwaited .notNumber)) ∨
    (∃ command cause, c.own = some (command, .notStarted cause)) ∨
    c.raised.isSome = true ∨ c.reading.isSome = true

/-- What an invocation comes to by its course, given its time limit, apart from its scratch
directory. -/
structure Gives (c : Course) (limit : Double)
    (answer : Except Fault (Except Host.Failure Reading)) : Prop where
  overdue : ∀ command, (command, .overdue) ∈ c.tried → answer = .ok (.error (.overdue limit))
  notAwaited : ∀ command problem, problem ≠ .notNumber →
    (command, .notAwaited problem) ∈ c.tried → answer = .error (.limitOverflow problem)
  notNumber : ∀ command, c.own = some (command, .notAwaited .notNumber) →
    answer = .ok (.error (.notStarted command.executable (.limitOverflow .notNumber)))
  notStarted : ∀ command cause, c.own = some (command, .notStarted cause) →
    answer = .ok (.error (.notStarted command.executable cause))
  raised : ∀ f, c.raised = some f → answer = .error f
  reading : ∀ r, c.reading = some r → answer = .ok (.ok r)
  ended : c.Ended

theorem Gives.withStuck {c : Course} {limit : Double}
    {answer : Except Fault (Except Host.Failure Reading)} (hg : c.Gives limit answer)
    (stuck : Option Fault) : (c.withStuck stuck).Gives limit answer :=
  ⟨hg.overdue, hg.notAwaited, hg.notNumber, hg.notStarted, hg.raised, hg.reading, hg.ended⟩

/-- A course leaves no choice of what an invocation comes to. -/
theorem Gives.unique {c : Course} {limit : Double}
    {x y : Except Fault (Except Host.Failure Reading)} (hx : c.Gives limit x)
    (hy : c.Gives limit y) : x = y := by
  rcases hx.ended with hstopped | ⟨command, hown⟩ | ⟨command, cause, hown⟩ | hraised | hread
  · obtain ⟨⟨command, ending⟩, hmem, hstops⟩ := hstopped
    cases ending with
    | exited r => exact Bool.noConfusion hstops
    | notStarted cause => exact Bool.noConfusion hstops
    | overdue => rw [hx.overdue command hmem, hy.overdue command hmem]
    | notAwaited problem =>
      have hp : problem ≠ .notNumber := bne_iff_ne.mp hstops
      rw [hx.notAwaited command problem hp hmem, hy.notAwaited command problem hp hmem]
  · rw [hx.notNumber command hown, hy.notNumber command hown]
  · rw [hx.notStarted command cause hown, hy.notStarted command cause hown]
  · obtain ⟨f, hf⟩ := Option.isSome_iff_exists.mp hraised
    rw [hx.raised f hf, hy.raised f hf]
  · obtain ⟨r, hr⟩ := Option.isSome_iff_exists.mp hread
    rw [hx.reading r hr, hy.reading r hr]

theorem withStuck_none {c : Course} (hs : c.stuck = none) : c.withStuck none = c := by
  cases c
  cases hs
  rfl

/-- What an invocation comes to by its course: where its scratch directory cannot be taken away, it
comes to that. -/
def Comes (c : Course) (limit : Double) (answer : Except Fault (Except Host.Failure Reading)) :
    Prop :=
  match c.stuck with
  | none => c.Gives limit answer
  | some f => answer = .error f

theorem Comes.unique {c : Course} {limit : Double}
    {x y : Except Fault (Except Host.Failure Reading)} (hx : c.Comes limit x)
    (hy : c.Comes limit y) : x = y := by
  unfold Comes at hx hy
  cases hs : c.stuck with
  | none =>
    rw [hs] at hx hy
    exact hx.unique hy
  | some f =>
    rw [hs] at hx hy
    exact hx.trans hy.symm

end Course

namespace Host
open Act
variable (h : Host)

/-- Commands one after the other up to one that stops them, with what becomes of each, and the
world that they leave. -/
def tidied (limit : Double) : List Command → World → List (Command × Ending) × World
  | [], w => ([], w)
  | c :: rest, w =>
    let ending := h.ending limit c w
    let v := h.after limit c w
    if ending.stops then ([(c, ending)], v)
    else ((c, ending) :: (tidied limit rest v).1, (tidied limit rest v).2)

/-- What an analyzer gets to read when its command has ended. -/
def output (r : Request) (reaction : Reaction) (w : World) : Output where
  stdout := lossyText reaction.stdout
  stderr := lossyText reaction.stderr
  status := reaction.status
  licenses := r.licenses
  files := match r.scratch with
    | some path => ((h.scratchFiles path).on w).1.toOption.getD []
    | none => []
  wording := h.wording.json

/-- What happens from an analyzer's own command on. -/
def courseFrom (a : Analyzer) (r : Request) (limit : Double) (tidied : List (Command × Ending))
    (c : Command) (w : World) : Course :=
  let ending := h.ending limit c w
  let course : Course := { tidied, own := some (c, ending) }
  match ending with
  | .exited reaction =>
    match a.read (h.output r reaction (h.after limit c w)) with
    | .error f => { course with raised := some f }
    | .ok reading => { course with reading := some reading }
  | _ => course

/-- What happens when an analyzer is run. -/
def course (a : Analyzer) (r : Request) (o : RunOptions) (w : World) : Course :=
  match if o.fix then a.preFix r else .ok [] with
  | .error f => { raised := some f }
  | .ok commands =>
    let (tidied, v) := h.tidied o.timeout commands w
    if tidied.any (·.2.stops) then { tidied }
    else match a.build r with
      | .error f => { tidied, raised := some f }
      | .ok c => h.courseFrom a r o.timeout tidied c v

/-- What running commands one after the other comes to, given what became of those tried. -/
structure Stopped (limit : Double) (tried : List (Command × Ending))
    (answer : Except Fault (Option Failure)) : Prop where
  through : (∀ t ∈ tried, t.2.stops = false) → answer = .ok none
  overdue : ∀ c, (c, .overdue) ∈ tried → answer = .ok (some (.overdue limit))
  notAwaited : ∀ c problem, problem ≠ .notNumber → (c, .notAwaited problem) ∈ tried →
    answer = .error (.limitOverflow problem)

private theorem stopped_singleton {limit : Double} {c : Command} {ending : Ending}
    {answer : Except Fault (Option Failure)} (hs : ending.stops = true)
    (ho : ending = .overdue → answer = .ok (some (.overdue limit)))
    (hn : ∀ problem, problem ≠ .notNumber → ending = .notAwaited problem →
      answer = .error (.limitOverflow problem)) :
    Stopped limit [(c, ending)] answer := by
  constructor
  · intro hall
    rw [hall _ (List.mem_singleton_self _)] at hs
    exact Bool.noConfusion hs
  · intro d hd
    cases List.mem_singleton.mp hd
    exact ho rfl
  · intro d problem hp hd
    cases List.mem_singleton.mp hd
    exact hn problem hp rfl

private theorem Stopped.cons {limit : Double} {tried : List (Command × Ending)} {c : Command}
    {ending : Ending} {answer : Except Fault (Option Failure)} (hs : ending.stops = false)
    (h : Stopped limit tried answer) : Stopped limit ((c, ending) :: tried) answer := by
  constructor
  · exact fun hall => h.through fun t ht => hall t (List.mem_cons_of_mem _ ht)
  · intro d hd
    rcases List.mem_cons.mp hd with he | hd
    · cases he
      cases hs
    · exact h.overdue d hd
  · intro d problem hp hd
    rcases List.mem_cons.mp hd with he | hd
    · cases he
      rw [Ending.stops_notAwaited hp] at hs
      cases hs
    · exact h.notAwaited d problem hp hd

theorem tidy_stopped (limit : Double) (commands : List Command) (w : World) :
    ∃ answer, (h.tidy limit commands).on w = (answer, (h.tidied limit commands w).2) ∧
      Stopped limit (h.tidied limit commands w).1 answer := by
  induction commands generalizing w with
  | nil => exact ⟨.ok none, rfl, fun _ => rfl, by simp [tidied], by simp [tidied]⟩
  | cons c rest ih =>
    have hspawn := h.spawn_on limit c w
    obtain ⟨answer, hrest, hstopped⟩ := ih (h.after limit c w)
    rw [tidied, tidy]
    cases he : h.ending limit c w with
    | exited r =>
      rw [he] at hspawn
      rw [on_bind_ok hspawn]
      exact ⟨answer, hrest, hstopped.cons rfl⟩
    | notStarted cause =>
      rw [he] at hspawn
      rw [on_bind_ok hspawn]
      exact ⟨answer, hrest, hstopped.cons rfl⟩
    | overdue =>
      rw [he] at hspawn
      rw [on_bind_ok hspawn]
      refine ⟨.ok (some (.overdue limit)), rfl, stopped_singleton rfl (fun _ => rfl) ?_⟩
      simp
    | notAwaited problem =>
      rw [he] at hspawn
      by_cases hp : problem = .notNumber
      · subst hp
        rw [on_bind_ok hspawn]
        exact ⟨answer, hrest, hstopped.cons rfl⟩
      · rw [Ending.answer_notAwaited hp] at hspawn
        have hs := Ending.stops_notAwaited hp
        rw [on_bind_error hspawn, if_pos hs]
        exact ⟨.error (.limitOverflow problem), rfl, stopped_singleton hs (by simp) (by simp)⟩

/-- An analyzer's own command, and what is read of its output. -/
def invokeOwn (a : Analyzer) (r : Request) (limit : Double) : Act (Except Failure Reading) := do
  let command ← Act.ofExcept (a.build r)
  match ← h.spawn command limit with
  | .error failure => return .error failure
  | .ok completed =>
    let files ← match r.scratch with
      | some path => h.scratchFiles path
      | none => pure []
    let output : Output :=
      { stdout := completed.stdout.getD "", stderr := completed.stderr.getD ""
        status := completed.status, licenses := r.licenses, files, wording := h.wording.json }
    return .ok (← Act.ofExcept (a.read output))

theorem invoke_eq (a : Analyzer) (r : Request) (o : RunOptions) :
    h.invoke a r o = (ofExcept (if o.fix then a.preFix r else .ok []) >>= fun commands =>
      h.tidy o.timeout commands >>= fun stop =>
        match stop with
        | some failure => pure (.error failure)
        | none => h.invokeOwn a r o.timeout) := by
  unfold invoke
  cases o.fix with
  | false => rfl
  | true => rfl

theorem scratchFiles_on (path : Path) (w : World) :
    ∃ fs, (h.scratchFiles path).on w = (.ok fs, w) := by
  rw [scratchFiles, on_bind_ok (on_files w)]
  simp only
  split
  · exact ⟨_, rfl⟩
  · exact ⟨_, rfl⟩

/-- An analyzer reads what its command left behind. -/
theorem invokeOwn_exited {a : Analyzer} {r : Request} {limit : Double} {c : Command} {w : World}
    {reaction : Reaction} (hb : a.build r = .ok c)
    (he : h.ending limit c w = .exited reaction) :
    ((h.invokeOwn a r limit).on w).1 =
      (a.read (h.output r reaction (h.after limit c w))).map .ok := by
  have hspawn := h.spawn_on limit c w
  rw [he] at hspawn
  rw [invokeOwn, hb, on_bind_ok (on_ofExcept _ w), on_bind_ok hspawn, output]
  cases r.scratch with
  | none =>
    rw [on_bind_ok (on_pure _ _)]
    simp only [on_bind_pure, on_ofExcept, Option.getD_some]
  | some path =>
    obtain ⟨fs, hfs⟩ := h.scratchFiles_on path (h.after limit c w)
    rw [on_bind_ok hfs]
    simp only [hfs, on_bind_pure, on_ofExcept, Option.getD_some]
    rfl

/-- Where the analyzer's own command is not come to, the commands before it decide, or what the
analyzer raised. -/
private theorem gives_without_own {limit : Double} {tidied : List (Command × Ending)}
    {raised : Option Fault} {answer : Except Fault (Except Failure Reading)}
    (ho : ∀ command, (command, .overdue) ∈ tidied → answer = .ok (.error (.overdue limit)))
    (ha : ∀ command problem, problem ≠ .notNumber → (command, .notAwaited problem) ∈ tidied →
      answer = .error (.limitOverflow problem))
    (hf : ∀ f, raised = some f → answer = .error f)
    (hended : (∃ t ∈ tidied, t.2.stops = true) ∨ raised.isSome = true) :
    Course.Gives { tidied, raised } limit answer := by
  have htried : Course.tried { tidied, raised } = tidied := List.append_nil tidied
  constructor
  · exact fun command hmem => ho command (htried ▸ hmem)
  · exact fun command problem hp hmem => ha command problem hp (htried ▸ hmem)
  · exact fun _ he => nomatch he
  · exact fun _ _ he => nomatch he
  · exact hf
  · exact fun _ he => nomatch he
  · rw [Course.Ended, htried]
    rcases hended with hended | hended
    · exact .inl hended
    · exact .inr (.inr (.inr (.inl hended)))

/-- Where no command before stopped the course, the analyzer's own one decides. -/
private theorem gives_of_own {limit : Double} {tidied : List (Command × Ending)}
    (ht : ∀ t ∈ tidied, t.2.stops = false) {c : Command} {ending : Ending} {raised : Option Fault}
    {reading : Option Reading} {answer : Except Fault (Except Failure Reading)}
    (ho : ending = .overdue → answer = .ok (.error (.overdue limit)))
    (ha : ∀ problem, problem ≠ .notNumber → ending = .notAwaited problem →
      answer = .error (.limitOverflow problem))
    (hn : ending = .notAwaited .notNumber →
      answer = .ok (.error (.notStarted c.executable (.limitOverflow .notNumber))))
    (hs : ∀ cause, ending = .notStarted cause →
      answer = .ok (.error (.notStarted c.executable cause)))
    (hf : ∀ f, raised = some f → answer = .error f)
    (hr : ∀ r, reading = some r → answer = .ok (.ok r))
    (hended : (∀ r, ending ≠ .exited r) ∨ raised.isSome = true ∨ reading.isSome = true) :
    Course.Gives { tidied, own := some (c, ending), raised, reading } limit answer := by
  have hown (t : Command × Ending) (hmem : t ∈ tidied ++ [(c, ending)])
      (hstops : t.2.stops = true) : t = (c, ending) := by
    rcases List.mem_append.mp hmem with hmem | hmem
    · rw [ht t hmem] at hstops
      exact Bool.noConfusion hstops
    · exact List.mem_singleton.mp hmem
  constructor
  · intro command hmem
    exact ho (Prod.mk.inj (hown _ hmem rfl)).2.symm
  · intro command problem hp hmem
    exact ha problem hp (Prod.mk.inj (hown _ hmem (Ending.stops_notAwaited hp))).2.symm
  · intro command he
    cases he
    exact hn rfl
  · intro command cause he
    cases he
    exact hs cause rfl
  · exact hf
  · exact hr
  · rcases hended with hended | hended
    · cases ending with
      | exited r => exact absurd rfl (hended r)
      | overdue => exact .inl ⟨_, List.mem_append_right _ (List.mem_singleton_self _), rfl⟩
      | notStarted cause => exact .inr (.inr (.inl ⟨c, cause, rfl⟩))
      | notAwaited problem =>
        by_cases hp : problem = .notNumber
        · subst hp
          exact .inr (.inl ⟨c, rfl⟩)
        · exact .inl ⟨_, List.mem_append_right _ (List.mem_singleton_self _),
            Ending.stops_notAwaited hp⟩
    · exact .inr (.inr (.inr hended))

private theorem courseFrom_gives (a : Analyzer) (r : Request) (limit : Double)
    (tidied : List (Command × Ending)) (ht : ∀ t ∈ tidied, t.2.stops = false) (c : Command)
    (hb : a.build r = .ok c) (w : World) :
    (h.courseFrom a r limit tidied c w).Gives limit ((h.invokeOwn a r limit).on w).1 := by
  have hspawn := h.spawn_on limit c w
  rw [courseFrom]
  cases he : h.ending limit c w with
  | exited reaction =>
    rw [h.invokeOwn_exited hb he]
    dsimp only
    cases a.read (h.output r reaction (h.after limit c w)) with
    | error f => apply gives_of_own ht <;> simp [Except.map]
    | ok reading => apply gives_of_own ht <;> simp [Except.map]
  | notStarted cause =>
    rw [he] at hspawn
    rw [invokeOwn, hb, on_bind_ok (on_ofExcept _ w), on_bind_ok hspawn]
    apply gives_of_own ht <;> simp [on_pure]
  | overdue =>
    rw [he] at hspawn
    rw [invokeOwn, hb, on_bind_ok (on_ofExcept _ w), on_bind_ok hspawn]
    apply gives_of_own ht <;> simp [on_pure]
  | notAwaited problem =>
    rw [he] at hspawn
    rw [invokeOwn, hb, on_bind_ok (on_ofExcept _ w)]
    by_cases hp : problem = .notNumber
    · subst hp
      rw [on_bind_ok hspawn]
      apply gives_of_own ht <;> simp [on_pure, eq_comm]
    · rw [Ending.answer_notAwaited hp] at hspawn
      rw [on_bind_error hspawn]
      apply gives_of_own ht <;> simp [hp]

/-- An invocation comes to what its course comes to. -/
theorem invoke_gives (a : Analyzer) (r : Request) (o : RunOptions) (w : World) :
    (h.course a r o w).Gives o.timeout ((h.invoke a r o).on w).1 := by
  rw [invoke_eq, course]
  cases hpre : (if o.fix then a.preFix r else .ok [] : Except Fault (List Command)) with
  | error f =>
    rw [on_bind_error (on_ofExcept _ w)]
    exact gives_without_own (by simp) (by simp) (by simp) (by simp)
  | ok commands =>
    rw [on_bind_ok (on_ofExcept _ w)]
    obtain ⟨answer, htidy, hstopped⟩ := h.tidy_stopped o.timeout commands w
    dsimp only
    split
    · next hany =>
      refine gives_without_own (fun command hmem => ?_) (fun command problem hp hmem => ?_)
        (by simp) (.inl (List.any_eq_true.mp hany))
      · rw [hstopped.overdue command hmem] at htidy
        rw [on_bind_ok htidy]
        rfl
      · rw [hstopped.notAwaited command problem hp hmem] at htidy
        rw [on_bind_error htidy]
    · next hnone =>
      have ht : ∀ t ∈ (h.tidied o.timeout commands w).1, t.2.stops = false := by
        simpa using hnone
      rw [hstopped.through ht] at htidy
      rw [on_bind_ok htidy]
      cases hb : a.build r with
      | ok c => exact h.courseFrom_gives a r o.timeout _ ht c hb _
      | error f =>
        dsimp only
        rw [invokeOwn, hb, on_bind_error (on_ofExcept _ _)]
        refine gives_without_own (fun command hmem => ?_) (fun command problem hp hmem => ?_)
          (by simp) (by simp)
        · exact Bool.noConfusion (ht _ hmem)
        · exact Bool.noConfusion ((ht _ hmem).symm.trans (Ending.stops_notAwaited hp))

theorem courseFrom_stuck (a : Analyzer) (r : Request) (limit : Double)
    (tidied : List (Command × Ending)) (c : Command) (w : World) :
    (h.courseFrom a r limit tidied c w).stuck = none := by
  unfold courseFrom
  dsimp only
  split
  · split <;> rfl
  · rfl

theorem course_stuck (a : Analyzer) (r : Request) (o : RunOptions) (w : World) :
    (h.course a r o w).stuck = none := by
  unfold course
  split
  · rfl
  · dsimp only
    split
    · rfl
    · split
      · rfl
      · exact h.courseFrom_stuck a r o.timeout _ _ _

/-- What happens in all when an analyzer is run, with a scratch directory of its own if it wants
one. A directory that cannot be made counts as raised. -/
def courseOf (a : Analyzer) (config : ToolConfig) (target : Path) (o : RunOptions) (w : World) :
    Course :=
  if a.usesScratch then
    match (h.makeScratch a).on w with
    | (.ok path, v) =>
      let r := o.request target config (some path)
      (h.course a r o v).withStuck
        (Fault.of? (withoutScratch ((h.invoke a r o).on v).2.files path (h.place path)))
    | (.error f, _) => { raised := some f }
  else h.course a (o.request target config none) o w

theorem dropScratch_on (path : Path) (w : World) :
    (h.dropScratch path).on w = match withoutScratch w.files path (h.place path) with
      | .ok files => (.ok (), { w with files })
      | .error f => (.error f, w) := by
  rw [dropScratch, on_bind_ok (on_files w)]
  cases hd : withoutScratch w.files path (h.place path) with
  | ok files =>
    rw [on_bind_ok (on_ofExcept _ w)]
    rfl
  | error f => rw [on_bind_error (on_ofExcept _ w)]

theorem invokeWithScratch_comes (a : Analyzer) (config : ToolConfig) (target : Path)
    (o : RunOptions) (w : World) :
    (h.courseOf a config target o w).Comes o.timeout
      ((h.invokeWithScratch a config target o).on w).1 := by
  unfold invokeWithScratch courseOf
  split
  · rcases hm : (h.makeScratch a).on w with ⟨made, v⟩
    cases made with
    | error f =>
      rw [on_bind_error hm]
      exact gives_without_own (by simp) (by simp) (by simp) (by simp)
    | ok path =>
      rw [on_bind_ok hm, on_bind_ok (on_attempt _ v)]
      dsimp only
      have hdrop := h.dropScratch_on path
        ((h.invoke a (o.request target config (some path)) o).on v).2
      cases hd : withoutScratch ((h.invoke a (o.request target config (some path)) o).on v).2.files
          path (h.place path) with
      | error f =>
        rw [hd] at hdrop
        rw [on_bind_error hdrop]
        rfl
      | ok files =>
        rw [hd] at hdrop
        rw [on_bind_ok hdrop, on_ofExcept]
        exact (h.invoke_gives a _ o v).withStuck none
  · rw [Course.Comes, h.course_stuck]
    exact h.invoke_gives a _ o w

end Host
end CodeAudit
