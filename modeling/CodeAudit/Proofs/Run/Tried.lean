import CodeAudit.Proofs.Process.Launches
import CodeAudit.Proofs.Run.Telling
import Mathlib.Data.List.Forall2
namespace CodeAudit

namespace Host
open Act
variable {h : Host} {limit : Double} {w v u : World}

/-- What a command leaves in the record of launches by its ending: nothing if it was not started,
and else one launch that it asks for. -/
def Leaves (h : Host) (t : Command × Ending) (ls : List Launch) : Prop :=
  match t.2 with
  | .notStarted _ => ls = []
  | _ => ∃ l, ls = [l] ∧ h.Asks t.1.start l

/-- From one world to another some commands were tried, in order, and nothing else was started. -/
def Tried (h : Host) (tried : List (Command × Ending)) (w v : World) : Prop :=
  ∃ parts : List (List Launch),
    v.launches = w.launches ++ parts.flatten ∧ List.Forall₂ h.Leaves tried parts

/-- What a command asks for: its words, in its directory. -/
theorem Asks.prepared {c : Command} {l : Launch} (hl : h.Asks c.start l) :
    ∃ files program directory, h.startDirectory files c.workingDir = .ok directory ∧
      l = ⟨program, c.args, directory, h.environment []⟩ := by
  obtain ⟨files, path, hp⟩ := hl
  obtain ⟨found, -, hp⟩ := bind_eq_ok.mp hp
  dsimp only at hp
  split at hp
  · cases hp
  · obtain ⟨directory, hdirectory, hp⟩ := bind_eq_ok.mp hp
    split at hp
    · cases hp
    · next program _ =>
      cases hp
      exact ⟨files, program, directory, hdirectory, rfl⟩

theorem Asks.args {c : Command} {l : Launch} (hl : h.Asks c.start l) : l.args = c.args := by
  obtain ⟨_, _, _, -, rfl⟩ := hl.prepared
  rfl

/-- Without a directory of its own a command is started where the program itself runs. -/
theorem Asks.workingDir {c : Command} {l : Launch} (hl : h.Asks c.start l)
    (hc : c.workingDir = none) : l.workingDir = h.workingDir.names := by
  obtain ⟨files, _, directory, hdirectory, rfl⟩ := hl.prepared
  rw [hc] at hdirectory
  exact (Except.ok.inj hdirectory).symm

/-- Whatever a command leaves in the record of launches it asks for. -/
theorem Leaves.asks {c : Command} {ending : Ending} {ls : List Launch}
    (hl : h.Leaves (c, ending) ls) : ∀ l ∈ ls, h.Asks c.start l := by
  have hcases : ls = [] ∨ ∃ l, ls = [l] ∧ h.Asks c.start l := by
    cases ending with
    | notStarted cause => exact .inl hl
    | exited r => exact .inr hl
    | overdue => exact .inr hl
    | notAwaited problem => exact .inr hl
  rcases hcases with rfl | ⟨l, rfl, hasks⟩
  · simp
  · exact List.forall_mem_singleton.mpr hasks

theorem Leaves.args {c : Command} {r : Reaction} {ls : List Launch}
    (hl : h.Leaves (c, .exited r) ls) : ls.map (·.args) = [c.args] := by
  obtain ⟨l, rfl, hasks⟩ := hl
  rw [List.map_singleton, hasks.args]

namespace Tried

theorem of_eq (hsame : v.launches = w.launches) : h.Tried [] w v :=
  ⟨[], by simpa using hsame, .nil⟩

theorem trans {before after : List (Command × Ending)} (hb : h.Tried before w v)
    (ha : h.Tried after v u) : h.Tried (before ++ after) w u := by
  obtain ⟨first, hfirst, hleaves⟩ := hb
  obtain ⟨second, hsecond, hleaves'⟩ := ha
  refine ⟨first ++ second, ?_, List.rel_append hleaves hleaves'⟩
  rw [hsecond, hfirst, List.flatten_append, List.append_assoc]

/-- What happens before and after without starting anything leaves no trace. -/
theorem congr {tried : List (Command × Ending)} {w' v' : World} (ht : h.Tried tried w v)
    (hw : w.launches = w'.launches) (hv : v'.launches = v.launches) : h.Tried tried w' v' := by
  obtain ⟨parts, hparts, hleaves⟩ := ht
  exact ⟨parts, by rw [hv, hparts, hw], hleaves⟩

end Tried

variable (h)

/-- Waiting for a program changes nothing but which processes are left. -/
theorem runGroup_world (s : Start) (limit grace : Double) (w : World) :
    ∃ left, ((h.runGroup s limit grace).on w).2 =
      { ((h.start s).on w).2 with survivors := left } := by
  rcases hs : (h.start s).on w with ⟨answer, v⟩
  cases answer with
  | error f =>
    rw [runGroup, on_bind_error hs]
    exact ⟨v.survivors, rfl⟩
  | ok started =>
    rw [h.runGroup_on hs]
    split
    · exact ⟨v.survivors, rfl⟩
    · split
      · exact ⟨v.survivors, rfl⟩
      · exact ⟨_, rfl⟩

theorem after_world (limit : Double) (c : Command) (w : World) :
    ∃ left, h.after limit c w = { ((h.start c.start).on w).2 with survivors := left } := by
  obtain ⟨left, hleft⟩ := h.runGroup_world c.start limit killGrace w
  refine ⟨left, ?_⟩
  rw [← hleft, after, spawn, ← Command.start, on_bind_ok (on_attempt _ w)]
  split
  · rfl
  · rfl
  · split
    · rfl
    · rfl

/-- Either nothing is started, or one launch that is asked for. -/
theorem start_cases (s : Start) (w : World) :
    (∃ cause, (h.start s).on w = (.error cause, w)) ∨
      ∃ started launch v, (h.start s).on w = (.ok started, v) ∧ h.Asks s launch ∧
        v.launches = w.launches ++ [launch] := by
  rw [start_on]
  split
  · next f hp => exact .inl ⟨f, rfl⟩
  · next path launch hp =>
    split
    · next f hr => exact .inl ⟨f, rfl⟩
    · next r hr => exact .inr ⟨(path, r), launch, _, rfl, ⟨w.files, path, hp⟩, rfl⟩

theorem tried_after (limit : Double) (c : Command) (w : World) :
    h.Tried [(c, h.ending limit c w)] w (h.after limit c w) := by
  obtain ⟨left, hafter⟩ := h.after_world limit c w
  rcases h.start_cases c.start w with ⟨cause, hs⟩ | ⟨started, launch, v, hs, hasks, hlog⟩
  · have hending : h.ending limit c w = .notStarted cause := by rw [ending, hs]
    have hleaves : h.Leaves (c, h.ending limit c w) [] := by
      rw [hending]
      rfl
    rw [hs] at hafter
    exact ⟨[[]], by simp [hafter], .cons hleaves .nil⟩
  · have hleaves : h.Leaves (c, h.ending limit c w) [launch] := by
      rw [ending, hs]
      dsimp only
      cases limitProblem? limit with
      | some problem => exact ⟨launch, rfl, hasks⟩
      | none =>
        cases inTime started.2 limit with
        | true => exact ⟨launch, rfl, hasks⟩
        | false => exact ⟨launch, rfl, hasks⟩
    rw [hs] at hafter
    exact ⟨[[launch]], by simp [hafter, hlog], .cons hleaves .nil⟩

theorem tried_tidied (limit : Double) (commands : List Command) (w : World) :
    h.Tried (h.tidied limit commands w).1 w (h.tidied limit commands w).2 := by
  induction commands generalizing w with
  | nil => exact .of_eq rfl
  | cons c rest ih =>
    have hfirst := h.tried_after limit c w
    rw [tidied]
    split
    · exact hfirst
    · exact hfirst.trans (ih (h.after limit c w))

/-- After its own command an analyzer starts nothing more. -/
theorem invokeOwn_launches {a : Analyzer} {r : Request} {c : Command} (hb : a.build r = .ok c)
    (limit : Double) (w : World) :
    ((h.invokeOwn a r limit).on w).2.launches = (h.after limit c w).launches := by
  have hspawn := h.spawn_on limit c w
  rw [invokeOwn, hb, on_bind_ok (on_ofExcept _ w)]
  rcases hanswer : (h.ending limit c w).answer c limit with f | failure | completed
  · rw [hanswer] at hspawn
    rw [on_bind_error hspawn]
  · rw [hanswer] at hspawn
    rw [on_bind_ok hspawn]
    rfl
  · rw [hanswer] at hspawn
    rw [on_bind_ok hspawn]
    cases r.scratch with
    | none =>
      rw [on_bind_ok (on_pure _ _), on_bind_pure, on_ofExcept]
    | some path =>
      obtain ⟨fs, hfs⟩ := h.scratchFiles_on path (h.after limit c w)
      rw [on_bind_ok hfs, on_bind_pure, on_ofExcept]

theorem courseFrom_own (a : Analyzer) (r : Request) (limit : Double)
    (tidied : List (Command × Ending)) (c : Command) (w : World) :
    (h.courseFrom a r limit tidied c w).tidied = tidied ∧
      (h.courseFrom a r limit tidied c w).own = some (c, h.ending limit c w) := by
  unfold courseFrom
  dsimp only
  split
  · split
    · exact ⟨rfl, rfl⟩
    · exact ⟨rfl, rfl⟩
  · exact ⟨rfl, rfl⟩

theorem courseFrom_tried (a : Analyzer) (r : Request) (limit : Double)
    (tidied : List (Command × Ending)) (c : Command) (w : World) :
    (h.courseFrom a r limit tidied c w).tried = tidied ++ [(c, h.ending limit c w)] := by
  obtain ⟨htidied, hown⟩ := h.courseFrom_own a r limit tidied c w
  rw [Course.tried, htidied, hown, Option.toList_some]

theorem tried_invoke (a : Analyzer) (r : Request) (o : RunOptions) (w : World) :
    h.Tried (h.course a r o w).tried w ((h.invoke a r o).on w).2 := by
  rw [invoke_eq, course]
  cases if o.fix then a.preFix r else .ok [] with
  | error f =>
    rw [on_bind_error (on_ofExcept _ w)]
    exact .of_eq rfl
  | ok commands =>
    rw [on_bind_ok (on_ofExcept _ w)]
    obtain ⟨answer, htidy, hstopped⟩ := h.tidy_stopped o.timeout commands w
    have htidied := h.tried_tidied o.timeout commands w
    dsimp only
    split
    · next hany =>
      have htried : Course.tried { tidied := (h.tidied o.timeout commands w).1 } =
          (h.tidied o.timeout commands w).1 := List.append_nil _
      rw [htried]
      cases answer with
      | error f => rwa [on_bind_error htidy]
      | ok stop =>
        rw [on_bind_ok htidy]
        cases stop with
        | some failure => exact htidied
        | none =>
          obtain ⟨⟨c, ending⟩, hmem, hstops⟩ := List.any_eq_true.mp hany
          cases ending with
          | exited r => cases hstops
          | notStarted cause => cases hstops
          | overdue => cases hstopped.overdue c hmem
          | notAwaited problem => cases hstopped.notAwaited c problem (bne_iff_ne.mp hstops) hmem
    · next hnone =>
      have hthrough := hstopped.through (by simpa using hnone)
      rw [hthrough] at htidy
      rw [on_bind_ok htidy]
      dsimp only
      cases hb : a.build r with
      | error f =>
        rw [invokeOwn, hb, on_bind_error (on_ofExcept _ _)]
        have htried : Course.tried { tidied := (h.tidied o.timeout commands w).1, raised := f } =
            (h.tidied o.timeout commands w).1 := List.append_nil _
        rw [htried]
        exact htidied
      | ok c =>
        rw [courseFrom_tried]
        have hown := h.tried_after o.timeout c (h.tidied o.timeout commands w).2
        exact (htidied.trans hown).congr rfl (h.invokeOwn_launches hb o.timeout _)

/-- A scratch directory cannot be made, and nothing changes, or it is new and nothing else
changes. -/
theorem makeScratch_cases (a : Analyzer) (w : World) :
    (∃ f, (h.makeScratch a).on w = (.error f, w)) ∨
      ∃ path entries, w.files.at? (h.place path) = none ∧
        w.files.at? (h.place path).dropLast = some (.directory entries) ∧
        (h.makeScratch a).on w = (.ok path, { w with
          files := w.files.set (some (.directory [])) (h.place path)
          scratches := w.scratches ++ [path] }) := by
  have hget : (get : Act World).on w = (.ok w, w) := rfl
  rw [makeScratch, on_bind_ok hget]
  dsimp only
  split
  · exact .inl ⟨_, rfl⟩
  · next path hfound =>
    have hnone := List.find?_some hfound
    have hfresh : w.files.at? (h.place path) = none := Option.isNone_iff_eq_none.mp hnone
    split
    · next entries hparent =>
      split
      · exact .inl ⟨_, rfl⟩
      · exact .inr ⟨path, entries, hfresh, hparent, rfl⟩
    · exact .inl ⟨_, rfl⟩
    · exact .inl ⟨_, rfl⟩
    · exact .inl ⟨_, rfl⟩

theorem makeScratch_launches (a : Analyzer) (w : World) :
    ((h.makeScratch a).on w).2.launches = w.launches := by
  rcases h.makeScratch_cases a w with ⟨f, hm⟩ | ⟨path, entries, -, -, hm⟩
  · rw [hm]
  · rw [hm]

/-- Whether a scratch directory can be taken away or not, only files change. -/
theorem dropScratch_world (path : Path) (w : World) :
    ∃ files, ((h.dropScratch path).on w).2 = { w with files } := by
  rw [dropScratch_on]
  cases withoutScratch w.files path (h.place path) with
  | ok files => exact ⟨files, rfl⟩
  | error f => exact ⟨w.files, rfl⟩

/-- Where a scratch directory is wanted, a run is an invocation between its making and its end. -/
theorem invokeWithScratch_world {a : Analyzer} {path : Path} (hwants : a.usesScratch = true)
    (hm : (h.makeScratch a).on w = (.ok path, v)) (config : ToolConfig) (target : Path)
    (o : RunOptions) :
    ((h.invokeWithScratch a config target o).on w).2 =
      ((h.dropScratch path).on
        ((h.invoke a (o.request target config (some path)) o).on v).2).2 := by
  rw [invokeWithScratch, if_pos hwants, on_bind_ok hm, on_bind_ok (on_attempt _ v)]
  rcases hd : (h.dropScratch path).on
    ((h.invoke a (o.request target config (some path)) o).on v).2 with ⟨_ | _, u⟩
  · rw [on_bind_error hd]
  · rw [on_bind_ok hd, on_ofExcept]

/-- A run of an analyzer starts the commands of its course and nothing else. -/
theorem tried_runTool (a : Analyzer) (config : ToolConfig) (target : Path) (o : RunOptions)
    (w : World) :
    h.Tried (h.courseOf a config target o w).tried w ((h.runTool a config target o).on w).2 := by
  rw [runTool_on]
  show h.Tried _ w ((h.invokeWithScratch a config target o).on w).2
  cases hwants : a.usesScratch with
  | true =>
    have hscratch := h.makeScratch_launches a w
    rw [courseOf, if_pos hwants]
    rcases hm : (h.makeScratch a).on w with ⟨made, v⟩
    rw [hm] at hscratch
    cases made with
    | error f =>
      rw [invokeWithScratch, if_pos hwants, on_bind_error hm]
      exact .of_eq hscratch
    | ok path =>
      obtain ⟨files, hdrop⟩ := h.dropScratch_world path
        ((h.invoke a (o.request target config (some path)) o).on v).2
      rw [h.invokeWithScratch_world hwants hm, hdrop]
      exact (h.tried_invoke a _ o v).congr hscratch rfl
  | false =>
    have hplain : ¬ a.usesScratch = true := by simp [hwants]
    rw [courseOf, invokeWithScratch, if_neg hplain, if_neg hplain]
    exact h.tried_invoke a _ o w

end Host
end CodeAudit
