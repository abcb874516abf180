import CodeAudit.Proofs.Files.WellFormed
import CodeAudit.Proofs.Run.Ordered
namespace CodeAudit

namespace FileTree

theorem lookup_changed (name other : String) (change : FileTree → FileTree)
    (entries : List (String × FileTree)) :
    (entries.map fun (k, t) => if k = name then (k, change t) else (k, t)).lookup other =
      (entries.lookup other).map fun t => if other = name then change t else t := by
  induction entries with
  | nil => rfl
  | cons e rest ih =>
    obtain ⟨n, t⟩ := e
    by_cases ho : other = n
    · by_cases hn : n = name
      · simp [hn, ho]
      · simp [hn, ho]
    · have hne : (other == n) = false := beq_eq_false_iff_ne.mpr ho
      by_cases hn : n = name
      · simp [hn, List.lookup_cons, hn ▸ hne, ih]
      · simp [hn, List.lookup_cons, hne, ih]

/-- What is put into a directory is there then. -/
theorem at?_set_some {place : Place} {t : FileTree} {entries : List (String × FileTree)}
    (name : String) (s : FileTree) (hd : t.at? place = some (.directory entries)) :
    (t.set (some s) (place ++ [name])).at? (place ++ [name]) = some s := by
  induction place generalizing t with
  | nil =>
    obtain rfl : t = .directory entries := Option.some.inj hd
    rw [List.nil_append, set, at?_directory, lookup_withEntry, if_pos rfl]
    rfl
  | cons n rest ih =>
    cases t with
    | directory inner =>
      rw [at?_directory] at hd
      obtain ⟨u, hu, hrest⟩ := Option.bind_eq_some_iff.mp hd
      obtain ⟨m, ns, hcons⟩ := List.exists_cons_of_ne_nil (show rest ++ [name] ≠ [] by simp)
      rw [List.cons_append, hcons, set, ← hcons, at?_directory, lookup_changed, hu]
      simpa using ih hrest
    | _ => simp [at?, entry?] at hd

/-- Where something is taken away there is nothing then. -/
theorem at?_set_none {place : Place} (hp : place ≠ []) (t : FileTree) :
    (t.set none place).at? place = none := by
  induction place generalizing t with
  | nil => exact absurd rfl hp
  | cons n rest ih =>
    cases t with
    | directory entries =>
      cases rest with
      | nil =>
        rw [set, at?_directory, lookup_withoutEntry, if_pos rfl]
        rfl
      | cons m ns =>
        rw [set, at?_directory, lookup_changed]
        cases entries.lookup n with
        | none => rfl
        | some u => simpa using ih (List.cons_ne_nil m ns) u
    | _ => cases rest <;> rfl

/-- Where there is nothing, taking something away leaves nothing. -/
theorem at?_set_none_of_none {place other : Place} {t : FileTree} (h : t.at? other = none) :
    (t.set none place).at? other = none := by
  induction place generalizing t other with
  | nil => exact h
  | cons n rest ih =>
    cases t with
    | directory entries =>
      cases other with
      | nil => cases h
      | cons k other =>
        rw [at?_directory] at h
        cases rest with
        | nil =>
          rw [set, at?_directory, lookup_withoutEntry]
          split
          · rfl
          · exact h
        | cons m ns =>
          rw [set, at?_directory, lookup_changed]
          cases hl : entries.lookup k with
          | none => rfl
          | some u =>
            rw [hl] at h
            by_cases hk : k = n
            · simpa [hk] using ih h
            · simpa [hk] using h
    | _ =>
      cases rest <;> exact h

end FileTree

namespace Act
variable {α β : Type} {P : World → Prop}

/-- What holds of the world before a step holds of it afterwards, whatever the step comes to. -/
def Keeps (P : World → Prop) (x : Act α) : Prop := ∀ w, P w → P (x.on w).2

theorem keeps_pure (a : α) : (pure a : Act α).Keeps P := fun _ hw => hw

theorem keeps_ofExcept (x : Except Fault α) : (ofExcept x).Keeps P := by
  intro w hw
  rw [on_ofExcept]
  exact hw

theorem keeps_bind {x : Act α} {f : α → Act β} (hx : x.Keeps P) (hf : ∀ a, (f a).Keeps P) :
    (x >>= f).Keeps P := by
  intro w hw
  have hkept := hx w hw
  rcases hstep : x.on w with ⟨answer, v⟩
  rw [hstep] at hkept
  cases answer with
  | ok a =>
    rw [on_bind_ok hstep]
    exact hf a v hkept
  | error e =>
    rw [on_bind_error hstep]
    exact hkept

end Act

namespace Host
open Act
variable (h : Host) {a : Analyzer} {r : Request} {o : RunOptions} {w v : World}

/-- What holds of files still holds when a program has run among them. -/
def Spares (h : Host) (Q : FileTree → Prop) : Prop :=
  ∀ p ∈ h.programs, ∀ l files r, p.2 l files = .ok r → Q files → Q r.files

/-- The files have a property, and the scratch directories made so far are these. -/
def Stands (Q : FileTree → Prop) (made : List Path) (w : World) : Prop :=
  Q w.files ∧ w.scratches = made

variable {Q : FileTree → Prop} {made : List Path}

theorem keeps_start (hQ : h.Spares Q) (s : Start) : (h.start s).Keeps (Stands Q made) := by
  intro w hw
  rw [start_on]
  split
  · exact hw
  · next path launch _ =>
    split
    · exact hw
    · next reaction hr =>
      refine ⟨?_, hw.2⟩
      unfold react at hr
      split at hr
      · cases hr
      · next program hlookup =>
        obtain ⟨before, after, hprograms, -⟩ := List.lookup_eq_some_iff.mp hlookup
        have hmem : (launch.program, program) ∈ h.programs := by simp [hprograms]
        split at hr
        · cases hr
        · next hreaction =>
          cases hr
          exact hQ _ hmem _ _ _ hreaction hw.1

theorem keeps_spawn (hQ : h.Spares Q) (c : Command) (limit : Double) :
    (h.spawn c limit).Keeps (Stands Q made) := by
  intro w hw
  obtain ⟨left, hafter⟩ := h.after_world limit c w
  have hstarted := h.keeps_start hQ c.start w hw
  rw [spawn_on, hafter]
  exact hstarted

theorem keeps_tidy (hQ : h.Spares Q) (limit : Double) (commands : List Command) :
    (h.tidy limit commands).Keeps (Stands Q made) := by
  induction commands with
  | nil => exact keeps_pure none
  | cons c rest ih =>
    refine keeps_bind (h.keeps_spawn hQ c limit) fun answer => ?_
    split
    · exact keeps_pure _
    · exact ih

theorem keeps_invoke (hQ : h.Spares Q) (a : Analyzer) (r : Request) (o : RunOptions) :
    (h.invoke a r o).Keeps (Stands Q made) := by
  have hown : (h.invokeOwn a r o.timeout).Keeps (Stands Q made) := by
    refine keeps_bind (keeps_ofExcept _) fun command => ?_
    refine keeps_bind (h.keeps_spawn hQ command o.timeout) fun answer => ?_
    cases answer with
    | error failure => exact keeps_pure _
    | ok completed =>
      cases r.scratch with
      | none =>
        refine keeps_bind (keeps_pure []) fun files => ?_
        exact keeps_bind (keeps_ofExcept _) fun reading => keeps_pure _
      | some path =>
        refine keeps_bind ?_ fun files => keeps_bind (keeps_ofExcept _) fun reading => keeps_pure _
        intro w hw
        obtain ⟨fs, hfs⟩ := h.scratchFiles_on path w
        rw [hfs]
        exact hw
  rw [invoke_eq]
  refine keeps_bind (keeps_ofExcept _) fun commands => ?_
  refine keeps_bind (h.keeps_tidy hQ o.timeout commands) fun stop => ?_
  cases stop with
  | none => exact hown
  | some failure => exact keeps_pure _

theorem invoke_scratches (a : Analyzer) (r : Request) (o : RunOptions) (w : World) :
    ((h.invoke a r o).on w).2.scratches = w.scratches :=
  (h.keeps_invoke (Q := fun _ => True) (fun _ _ _ _ _ _ _ => trivial) a r o w ⟨trivial, rfl⟩).2

/-- A scratch directory is new, and making it changes nothing else. -/
theorem makeScratch_ok {path : Path} (hm : (h.makeScratch a).on w = (.ok path, v)) :
    w.files.at? (h.place path) = none ∧
      v.files.at? (h.place path) = some (.directory []) ∧
      v = { w with
        files := w.files.set (some (.directory [])) (h.place path)
        scratches := w.scratches ++ [path] } := by
  obtain ⟨f, herror⟩ | ⟨made, entries, hfresh, hparent, hmade⟩ := h.makeScratch_cases a w
  · cases hm.symm.trans herror
  · cases hm.symm.trans hmade
    refine ⟨hfresh, ?_, rfl⟩
    have hne : h.place path ≠ [] := by
      intro hnil
      rw [hnil] at hfresh
      cases hfresh
    have hsplit := List.dropLast_append_getLast hne
    have hset := FileTree.at?_set_some ((h.place path).getLast hne) (.directory []) hparent
    rwa [hsplit] at hset

theorem makeScratch_error {f : Fault} (hm : (h.makeScratch a).on w = (.error f, v)) : v = w := by
  obtain ⟨g, herror⟩ | ⟨made, entries, -, -, hmade⟩ := h.makeScratch_cases a w
  · cases hm.symm.trans herror
    rfl
  · cases hm.symm.trans hmade

/-- Where a scratch directory stands, it can be taken away. -/
theorem withoutScratch_directory {files t : FileTree} {path : Path} {place : Place}
    (ht : files.at? place = some t) (hdir : t.isDirectory = true) :
    withoutScratch files path place = .ok (files.set none place) := by
  have hhere : files.standing place = place := by
    rw [FileTree.standing, ht]
    rfl
  rw [withoutScratch, hhere, ht]
  cases t with
  | directory entries => rfl
  | closed names => rfl
  | _ => cases hdir

/-- Taking a scratch directory away takes away one thing or nothing. -/
theorem withoutScratch_ok {files left : FileTree} {path : Path} {place : Place}
    (hw : withoutScratch files path place = .ok left) :
    left = files ∨ ∃ there, left = files.set none there := by
  unfold withoutScratch at hw
  dsimp only at hw
  split at hw <;> cases hw
  all_goals first | exact .inl rfl | exact .inr ⟨_, rfl⟩

/-- A directory of a run's own, from the world `w` before the run to the world `v` after it: `made`
is the world that has the directory, and `left` the one from which it is taken away. Where a
directory still stands there, or nothing, then nothing is there in the end. -/
structure Scoped (h : Host) (path : Path) (w made left v : World) : Prop where
  fresh : w.files.at? (h.place path) = none
  there : made.files.at? (h.place path) = some (.directory [])
  made : made = { w with
    files := w.files.set (some (.directory [])) (h.place path)
    scratches := w.scratches ++ [path] }
  stays : h.Spares (fun files => ∃ entries, files.at? (h.place path) = some (.directory entries)) →
    ∃ entries, left.files.at? (h.place path) = some (.directory entries)
  dropped : ∀ files, withoutScratch left.files path (h.place path) = .ok files →
    v = { left with files }
  kept : ∀ f, withoutScratch left.files path (h.place path) = .error f → v = left
  gone : (∀ t, left.files.at? (h.place path) = some t → t.isDirectory = true) →
    v.files.at? (h.place path) = none
  only : v.scratches = w.scratches ++ [path]

/-- A run with a scratch directory. -/
theorem invokeWithScratch_scoped {path : Path} {u : World} (hwants : a.usesScratch = true)
    (hm : (h.makeScratch a).on w = (.ok path, u)) (config : ToolConfig) (target : Path)
    (o : RunOptions) :
    h.Scoped path w u ((h.invoke a (o.request target config (some path)) o).on u).2
      ((h.invokeWithScratch a config target o).on w).2 := by
  obtain ⟨hfresh, hthere, hu⟩ := h.makeScratch_ok hm
  have hne : h.place path ≠ [] := by
    intro hnil
    rw [hnil] at hfresh
    cases hfresh
  have hmade : u.scratches = w.scratches ++ [path] := by rw [hu]
  have hkept := (h.invoke_scratches a (o.request target config (some path)) o u).trans hmade
  have hstays (hspares : h.Spares fun files =>
      ∃ entries, files.at? (h.place path) = some (.directory entries)) :=
    (h.keeps_invoke hspares a (o.request target config (some path)) o u ⟨⟨[], hthere⟩, rfl⟩).1
  rw [h.invokeWithScratch_world hwants hm, dropScratch_on]
  generalize ((h.invoke a (o.request target config (some path)) o).on u).2 = left at *
  cases hw : withoutScratch left.files path (h.place path) with
  | error f =>
    refine ⟨hfresh, hthere, hu, hstays, fun files hf => ?_, fun _ _ => rfl, fun hdir => ?_, hkept⟩
    · cases hw.symm.trans hf
    cases ht : left.files.at? (h.place path) with
    | none => rfl
    | some t => cases hw.symm.trans (withoutScratch_directory ht (hdir t ht))
  | ok files =>
    refine ⟨hfresh, hthere, hu, hstays, fun files' hf => ?_, fun f hf => ?_, fun hdir => ?_, hkept⟩
    · cases hw.symm.trans hf
      rfl
    · cases hw.symm.trans hf
    · cases ht : left.files.at? (h.place path) with
      | none =>
        rcases withoutScratch_ok hw with rfl | ⟨there, rfl⟩
        · exact ht
        · exact FileTree.at?_set_none_of_none ht
      | some t =>
        cases hw.symm.trans (withoutScratch_directory ht (hdir t ht))
        exact FileTree.at?_set_none hne _

/-- What a run starts, in order, and the directory that it has meanwhile. The commands of an
analyzer are tried as `Course.Ordered` says, all with the one scratch directory if the analyzer
wants one, which is there from before the first until after the reading, and gone in the end unless
the commands have put something else in its place that cannot be taken away. -/
theorem runTool_scoped (a : Analyzer) (config : ToolConfig) (target : Path) (o : RunOptions)
    (w : World) :
    ∃ x v, (h.runTool a config target o).on w = (.ok x, v) ∧
      h.Tried (h.courseOf a config target o w).tried w v ∧
      (a.usesScratch = false →
        (h.courseOf a config target o w).Ordered h a (o.request target config none) o ∧
          v.scratches = w.scratches) ∧
      (a.usesScratch = true → ∀ f u, (h.makeScratch a).on w = (.error f, u) →
        (h.courseOf a config target o w).tried = [] ∧ x.error = some f.summary ∧ v = w) ∧
      (a.usesScratch = true → ∀ path u, (h.makeScratch a).on w = (.ok path, u) →
        let r := o.request target config (some path)
        let left := ((h.invoke a r o).on u).2
        let stuck := Fault.of? (withoutScratch left.files path (h.place path))
        h.courseOf a config target o w = (h.course a r o u).withStuck stuck ∧
          (h.courseOf a config target o w).Ordered h a r o ∧ h.Scoped path w u left v ∧
          ∀ f, stuck = some f → x.error = some f.summary) := by
  have htried := h.tried_runTool a config target o w
  have hrun := h.runTool_on a config target o w
  rcases hi : (h.invokeWithScratch a config target o).on w with ⟨answer, v⟩
  rw [hi] at hrun
  rw [hrun] at htried
  refine ⟨_, v, hrun, htried, fun hnone => ?_, fun hwants f u hm => ?_, fun hwants path u hm => ?_⟩
  · have hplain : ¬ a.usesScratch = true := by simp [hnone]
    have hcourse : h.courseOf a config target o w =
        h.course a (o.request target config none) o w := if_neg hplain
    have hkept := h.invoke_scratches a (o.request target config none) o w
    rw [invokeWithScratch, if_neg hplain] at hi
    rw [hi] at hkept
    rw [hcourse]
    exact ⟨h.course_ordered a _ o w, hkept⟩
  · have hcourse : h.courseOf a config target o w = { raised := some f } := by
      rw [courseOf, if_pos hwants, hm]
    rw [invokeWithScratch, if_pos hwants, on_bind_error hm] at hi
    cases hi
    rw [hcourse]
    exact ⟨rfl, rfl, h.makeScratch_error hm⟩
  · have hscoped := h.invokeWithScratch_scoped hwants hm config target o
    rw [hi] at hscoped
    intro r left stuck
    have hcourse : h.courseOf a config target o w = (h.course a r o u).withStuck stuck := by
      rw [courseOf, if_pos hwants, hm]
    refine ⟨hcourse, ?_, hscoped, fun f hf => ?_⟩
    · rw [hcourse]
      exact (h.course_ordered a r o u).withStuck stuck
    · have hcomes := h.invokeWithScratch_comes a config target o w
      rw [hi, hcourse, Course.Comes, Course.withStuck, hf] at hcomes
      cases hcomes
      rfl

/-- An analyzer with two commands before its own and a scratch directory. -/
def tidyAnalyzer : Analyzer :=
  { idleAnalyzer with
    usesScratch := true, preFix := fun _ => .ok [idleCommand, idleCommand] }

def scratchWorld : World where
  files := .directory [("bin", .directory [("tool", .file [] true)]), ("tmp", .directory [])]

/-- The world after a run with fixes and a limit of so many seconds. -/
def tidyRun (seconds : Int) : World :=
  ((idleHost.runTool tidyAnalyzer {} ⟨.root, []⟩ { timeout := .ofInt seconds, fix := true }).on
    scratchWorld).2

example : (tidyRun 120).launches.length = 3 ∧ (tidyRun 3000000).launches.length = 1 := by
  decide +kernel

end Host
end CodeAudit
