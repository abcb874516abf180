import CodeAudit.Proofs.Run.Course
namespace CodeAudit

namespace Act
variable {α β : Type}

/-- What a step comes to depends on nothing but the files, and it leaves them as they are. -/
def Looks (x : Act α) : Prop :=
  ∀ w, (x.on w).2.files = w.files ∧ ∀ v : World, v.files = w.files → (x.on v).1 = (x.on w).1

theorem looks_pure (a : α) : (pure a : Act α).Looks := fun _ => ⟨rfl, fun _ _ => rfl⟩

theorem looks_throw (f : Fault) : (throw f : Act α).Looks := fun _ => ⟨rfl, fun _ _ => rfl⟩

theorem looks_ofExcept (x : Except Fault α) : (ofExcept x).Looks := by
  cases x with
  | error f => exact looks_throw f
  | ok a => exact looks_pure a

theorem looks_modify {f : World → World} (hf : ∀ w, (f w).files = w.files) :
    (modify f : Act PUnit).Looks := fun w => ⟨hf w, fun _ _ => rfl⟩

theorem looks_files : files.Looks := fun _ => ⟨rfl, fun _ hv => congrArg Except.ok hv⟩

theorem looks_attempt {x : Act α} (hx : x.Looks) : (attempt x).Looks :=
  fun w => ⟨(hx w).1, fun v hv => congrArg Except.ok ((hx w).2 v hv)⟩

theorem looks_bind {x : Act α} {f : α → Act β} (hx : x.Looks) (hf : ∀ a, (f a).Looks) :
    (x >>= f).Looks := by
  intro w
  obtain ⟨hfiles, hsame⟩ := hx w
  rcases hw : x.on w with ⟨answer, u⟩
  rw [hw] at hfiles hsame
  cases answer with
  | error e =>
    rw [on_bind_error hw]
    refine ⟨hfiles, fun v hv => ?_⟩
    have hx' : x.on v = (.error e, (x.on v).2) := Prod.ext (hsame v hv) rfl
    rw [on_bind_error hx']
  | ok a =>
    rw [on_bind_ok hw]
    refine ⟨((hf a u).1).trans hfiles, fun v hv => ?_⟩
    have hx' : x.on v = (.ok a, (x.on v).2) := Prod.ext (hsame v hv) rfl
    rw [on_bind_ok hx']
    exact (hf a u).2 _ (((hx v).1.trans hv).trans hfiles.symm)

end Act

namespace Host
open Act
variable {h : Host}

/-- No program changes files. -/
def Still (h : Host) : Prop :=
  ∀ p ∈ h.programs, ∀ l files r, p.2 l files = .ok r → r.files = files

namespace Still

theorem react_files (hs : h.Still) {files : FileTree} {path : String} {l : Launch} {r : Reaction}
    (hr : h.react files path l = .ok r) : r.files = files := by
  unfold react at hr
  split at hr
  · cases hr
  · next program hlookup =>
    obtain ⟨before, after, hprograms, -⟩ := List.lookup_eq_some_iff.mp hlookup
    split at hr
    · cases hr
    · next hreaction =>
      cases hr
      exact hs (l.program, program) (by simp [hprograms]) _ _ _ hreaction

theorem looks_start (hs : h.Still) (s : Start) : (h.start s).Looks := by
  intro w
  have hfiles : ((h.start s).on w).2.files = w.files := by
    rw [start_on]
    split
    · rfl
    · split
      · rfl
      · next hr => exact hs.react_files hr
  refine ⟨hfiles, fun v hv => ?_⟩
  rw [start_on, start_on, hv]
  split
  · rfl
  · split
    · rfl
    · rfl

theorem looks_endGroup (g : Group) (limit grace : Double) : (endGroup g limit grace).Looks :=
  looks_bind (looks_modify fun _ => rfl) fun _ => looks_ofExcept _

theorem looks_runGroup (hs : h.Still) (s : Start) (limit grace : Double) :
    (h.runGroup s limit grace).Looks := by
  refine looks_bind (hs.looks_start s) fun started => ?_
  refine looks_bind (looks_ofExcept _) fun _ => ?_
  split
  · exact looks_pure _
  · exact looks_bind (looks_endGroup _ limit grace) fun _ => looks_throw _

theorem looks_spawn (hs : h.Still) (c : Command) (limit : Double) : (h.spawn c limit).Looks := by
  refine looks_bind (looks_attempt (hs.looks_runGroup _ limit killGrace)) fun answer => ?_
  split
  · exact looks_pure _
  · exact looks_pure _
  · split
    · exact looks_pure _
    · exact looks_throw _

theorem looks_tidy (hs : h.Still) (limit : Double) (commands : List Command) :
    (h.tidy limit commands).Looks := by
  induction commands with
  | nil => exact looks_pure _
  | cons c rest ih =>
    refine looks_bind (hs.looks_spawn c limit) fun answer => ?_
    split
    · exact looks_pure _
    · exact ih

theorem looks_scratchFiles (path : Path) : (h.scratchFiles path).Looks := by
  refine looks_bind looks_files fun files => ?_
  simp only
  split
  · exact looks_pure _
  · exact looks_pure _

theorem looks_invoke (hs : h.Still) (a : Analyzer) (r : Request) (o : RunOptions) :
    (h.invoke a r o).Looks := by
  have hown : (h.invokeOwn a r o.timeout).Looks := by
    refine looks_bind (looks_ofExcept _) fun command => ?_
    refine looks_bind (hs.looks_spawn command o.timeout) fun answer => ?_
    cases answer with
    | error failure => exact looks_pure _
    | ok completed =>
      cases r.scratch with
      | none =>
        refine looks_bind (looks_pure []) fun files => ?_
        exact looks_bind (looks_ofExcept _) fun reading => looks_pure _
      | some path =>
        refine looks_bind (looks_scratchFiles path) fun files => ?_
        exact looks_bind (looks_ofExcept _) fun reading => looks_pure _
  rw [invoke_eq]
  refine looks_bind (looks_ofExcept _) fun commands => ?_
  refine looks_bind (hs.looks_tidy o.timeout commands) fun stop => ?_
  cases stop with
  | none => exact hown
  | some failure => exact looks_pure _

/-- Where no program changes files, the run of an analyzer without a scratch directory depends on
the files and leaves them as they are. -/
theorem looks_runTool (hs : h.Still) {a : Analyzer} (ha : a.usesScratch = false)
    (config : ToolConfig) (target : Path) (o : RunOptions) :
    (h.runTool a config target o).Looks := by
  have hinvoke : (h.invokeWithScratch a config target o).Looks := by
    rw [invokeWithScratch, ha]
    exact hs.looks_invoke a _ o
  refine looks_bind (looks_attempt hinvoke) fun answer => ?_
  split
  · exact looks_pure _
  · exact looks_pure _
  · exact looks_pure _

end Still
end Host
end CodeAudit
