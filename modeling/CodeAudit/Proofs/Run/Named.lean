import CodeAudit.Proofs.Analyzer.Naming
import CodeAudit.Proofs.Outcome.Local
import CodeAudit.Proofs.Path.Climb
import CodeAudit.Proofs.Run.Gated
namespace CodeAudit

namespace Outcome

theorem map_file_localFindings (directory : Path) (scope : Scope) (findings : List Finding) :
    (localFindings directory scope findings).map (·.file) =
      ((findings.map (·.file)).map directory.relativize).filter scope.covers := by
  induction findings with
  | nil => rfl
  | cons f rest ih =>
    rw [localFindings_cons, List.map_cons, List.map_cons, List.filter_cons, ← ih]
    split <;> rfl

/-- Where an outcome tells of no error, something was read. -/
theorem Tells.exists_reading {x : Outcome} {limit : Double} {c : Course} (ht : x.Tells limit c)
    (he : x.error = none) : ∃ reading, c.reading = some reading := by
  have hfails {e : String} (hx : x.error = some e) : False := by
    rw [he] at hx
    cases hx
  rcases ht.ended with ⟨⟨command, ending⟩, hmem, hstops⟩ | ⟨command, hown⟩ |
    ⟨command, cause, hown⟩ | hraised | hread
  · cases ending with
    | exited r => cases hstops
    | notStarted cause => cases hstops
    | overdue => exact (hfails (ht.overdue command hmem)).elim
    | notAwaited problem =>
      exact (hfails (ht.notAwaited command problem (bne_iff_ne.mp hstops) hmem)).elim
  · exact (hfails (ht.notNumber command hown)).elim
  · exact (hfails (ht.notStarted command cause hown)).elim
  · obtain ⟨f, hf⟩ := Option.isSome_iff_exists.mp hraised
    exact (hfails (ht.raised f hf).1).elim
  · exact Option.isSome_iff_exists.mp hread

end Outcome

/-- An analyzer whose only command is started wherever the program itself runs. -/
structure Analyzer.Unplaced (a : Analyzer) : Prop where
  scratch : a.usesScratch = false
  tidies : ∀ r, a.preFix r = .ok []
  builds : ∀ r, ∃ c, a.build r = .ok c ∧ c.workingDir = none

theorem Analyzer.namings_unplaced : ∀ entry ∈ namings, entry.1.Unplaced := by
  rw [namings, List.forall_mem_cons, List.forall_mem_singleton]
  exact ⟨⟨rfl, fun _ => rfl, fun r => ⟨Mypy.build r, rfl, rfl⟩⟩,
    ⟨rfl, fun _ => rfl, fun r => ⟨Tsc.build r, rfl, rfl⟩⟩⟩

namespace Host
open Act CodeAudit.Path
variable (h : Host) {a : Analyzer} {w : World} {c : Command}

theorem courseOf_unplaced (ha : a.Unplaced) (config : ToolConfig) (target : Path) (o : RunOptions)
    (w : World) :
    ∃ c, c.workingDir = none ∧ h.courseOf a config target o w =
      h.courseFrom a (o.request target config none) o.timeout [] c w := by
  let r := o.request target config none
  obtain ⟨c, hbuild, hplace⟩ := ha.builds r
  have hplain : h.courseOf a config target o w = h.course a r o w := by
    rw [courseOf, ha.scratch]
    exact if_neg Bool.false_ne_true
  have hpre : (if o.fix then a.preFix r else .ok []) = .ok [] := by
    rw [ha.tidies]
    exact ite_self _
  have hthrough := h.course_through (w := w) hpre hbuild (by simp [tidied])
  refine ⟨c, hplace, ?_⟩
  rw [hplain, hthrough, tidied]

/-- What is read in a course is what the analyzer's own command printed. -/
theorem courseFrom_read {r : Request} {limit : Double} {tidied : List (Command × Ending)}
    {reading : Reading} (hread : (h.courseFrom a r limit tidied c w).reading = some reading) :
    ∃ reaction v, h.ending limit c w = .exited reaction ∧
      a.read (h.output r reaction v) = .ok reading := by
  unfold courseFrom at hread
  dsimp only at hread
  split at hread
  · next reaction hending =>
    split at hread
    · cases hread
    · next hok =>
      cases hread
      exact ⟨reaction, _, hending, hok⟩
  · cases hread

/-- Whether a file's text, read as from a target, names the place there that it names where a
program was started. -/
def Agrees (target : Path) (l : Launch) (file : String) : Prop :=
  (h.workingDir.join target).reach (target.relativize file) =
    (Path.mk .root l.workingDir).reach file

/-- The programs of mypy and tsc are started where the program itself runs. Their findings stand in
the files that they print, each read as from the target and kept if it counts: a local text names
the same place there as where it was printed exactly if the two directories differ only in what it
climbs out of, and all do only if the two are the same place. A relative text that keeps a backslash
names another place below any target without one. -/
theorem runTool_names {files : String → List String} (hentry : (a, files) ∈ Analyzer.namings)
    (config : ToolConfig) (target : Path) (scope : Scope) (o : RunOptions) (w : World) :
    ∃ x v new, (h.runTool a config target o).on w = (.ok x, v) ∧
      v.launches = w.launches ++ new ∧
      (x.error = none → ∃ c reaction l,
        (h.courseOf a config target o w).own = some (c, .exited reaction) ∧ new = [l] ∧
        (x.localize target scope).findings.map (·.file) =
          ((files (lossyText reaction.stdout)).map target.relativize).filter scope.covers) ∧
      ∀ l ∈ new, l.workingDir = h.workingDir.names ∧
        (∀ file, IsLocal file → (h.Agrees target l file ↔
          (settled (h.place target)).rdrop (climbs (namesOf file.toList)) =
            (settled h.workingDir.names).rdrop (climbs (namesOf file.toList)))) ∧
        ((∀ file, IsLocal file → h.Agrees target l file) ↔
          settled (h.place target) = settled h.workingDir.names) ∧
        ∀ file n, file.toList.head? ≠ some '/' → n ∈ settled (namesOf file.toList) →
          '\\' ∈ n.toList → (∀ m ∈ h.place target, '\\' ∉ m.toList) →
          ¬ h.Agrees target l file := by
  have ha := Analyzer.namings_unplaced _ hentry
  obtain ⟨x, v, hrun, htells, -⟩ := h.exists_tells a config target o w
  replace htells := htells (h.courseOf_stuck ha.scratch config target o w)
  obtain ⟨c, hplace, hcourse⟩ := h.courseOf_unplaced ha config target o w
  obtain ⟨parts, hlaunches, hleaves⟩ := h.tried_runTool a config target o w
  rw [hrun] at hlaunches
  rw [hcourse, courseFrom_tried] at hleaves
  obtain ⟨new, rest, hnew, hrest, rfl⟩ := List.forall₂_cons_left_iff.mp hleaves
  cases hrest
  refine ⟨x, v, new, hrun, by simpa using hlaunches, fun he => ?_, fun l hl => ?_⟩
  · obtain ⟨reading, hread⟩ := htells.exists_reading he
    have hfrom := hread
    rw [hcourse] at hfrom
    obtain ⟨reaction, u, hending, hok⟩ := h.courseFrom_read hfrom
    obtain ⟨fs, rfl, hfiles⟩ := Analyzer.namings_names _ hentry _ _ hok
    rw [hending] at hnew
    obtain ⟨l, rfl, -⟩ := hnew
    refine ⟨c, reaction, l, ?_, rfl, ?_⟩
    · rw [hcourse, (courseFrom_own ..).2, hending]
    · rw [Outcome.findings_localize _ _ _ he, (htells.read fs hread).2,
        Outcome.map_file_localFindings, hfiles]
      rfl
  · have hhere : l.workingDir = h.workingDir.names := (hnew.asks l hl).workingDir hplace
    let there := h.workingDir.join target
    let here : Path := ⟨.root, l.workingDir⟩
    rw [← hhere]
    refine ⟨rfl, fun file hf => reach_relativize_iff there target here hf,
      reach_relativize_all_iff there target here, ?_⟩
    intro file n hf hn hback hplain
    exact reach_relativize_ne hf hn hback hplain

/-- A host on which tsc is started above the project that it looks at. -/
def tscHost : Host :=
  { idleHost with
    programs := [(["bin", "tsc"], fun _ files => .ok {
      stdout := "proj/a.ts(3,7): error TS2304: x\n".toUTF8.data.toList, status := 2, files })]
    searchPath := ["/bin"] }

def tscWorld : World where
  files := .directory [("bin", .directory [("tsc", .file [] true)])]

def tscTarget : Path := ⟨.root, ["proj"]⟩

/-- All files count. -/
def everything : Scope := ⟨⟨[], []⟩, none⟩

private theorem tsc_run :
    ((tscHost.runTool .tsc {} tscTarget {}).on tscWorld).1.toOption.map (fun x =>
      (x.error, (x.localize tscTarget everything).findings.map (·.file))) =
        some (none, ["proj/a.ts"]) := by
  decide +kernel

theorem runTool_names_above :
    ∃ x v l, (tscHost.runTool .tsc {} tscTarget {}).on tscWorld = (.ok x, v) ∧
      v.launches = [l] ∧ l.workingDir = [] ∧
      (x.localize tscTarget everything).findings.map (·.file) = ["proj/a.ts"] ∧
      ¬ tscHost.Agrees tscTarget l "proj/a.ts" := by
  have hentry : (Analyzer.tsc, Analyzer.Tsc.files) ∈ Analyzer.namings := by simp [Analyzer.namings]
  obtain ⟨x, v, new, hrun, hlaunches, hreported, hnew⟩ :=
    tscHost.runTool_names hentry {} tscTarget everything {} tscWorld
  have hfound := tsc_run
  rw [hrun] at hfound
  obtain ⟨herror, hfiles⟩ := Prod.mk.inj (Option.some.inj hfound)
  obtain ⟨c, reaction, l, -, rfl, -⟩ := hreported herror
  obtain ⟨hhere, hagrees, -⟩ := hnew l (List.mem_singleton_self l)
  refine ⟨x, v, l, hrun, hlaunches, hhere, hfiles, ?_⟩
  rw [hagrees "proj/a.ts" (by decide)]
  decide

end Host
end CodeAudit
