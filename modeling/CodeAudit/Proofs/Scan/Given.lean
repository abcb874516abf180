import CodeAudit.Proofs.Analyzer.Subset
import CodeAudit.Proofs.Run.Gated
import CodeAudit.Proofs.Run.Ordered
import CodeAudit.Proofs.Scan.Restricted
import CodeAudit.Proofs.Scan.Told
namespace CodeAudit

namespace Path

/-- Names with slashes between them are written alike if some of the last are written before. -/
theorem intercalate_append_intercalate (names : List String) {rest : List String}
    (hrest : rest ≠ []) :
    "/".intercalate (names ++ ["/".intercalate rest]) = "/".intercalate (names ++ rest) := by
  cases names with
  | nil => simp
  | cons n names =>
    have hnames : n :: names ≠ [] := List.cons_ne_nil n names
    rw [String.intercalate_append_of_ne_nil hnames (by simp),
      String.intercalate_append_of_ne_nil hnames hrest, String.intercalate_singleton]

end Path

namespace Host
open Act
variable {h : Host} {a : Analyzer} {r : Request} {o : RunOptions} {w v : World}

theorem Tried.launched {tried : List (Command × Ending)} {p : Launch → Prop}
    (ht : h.Tried tried w v) (hp : ∀ t ∈ tried, ∀ l, h.Asks t.1.start l → p l) :
    Launched p w v := by
  obtain ⟨parts, hparts, hleaves⟩ := ht
  refine ⟨parts.flatten, hparts, ?_⟩
  clear hparts
  induction hleaves with
  | nil => simp
  | cons hfirst _ ih =>
    obtain ⟨hmine, hrest⟩ := List.forall_mem_cons.mp hp
    rw [List.flatten_cons, List.forall_mem_append]
    exact ⟨fun l hl => hmine l (hfirst.asks l hl), ih hrest⟩

variable (h)

/-- Whatever is tried in a course is a command of the analyzer for its request. -/
theorem course_uses (a : Analyzer) (r : Request) (o : RunOptions) (w : World) :
    ∀ t ∈ (h.course a r o w).tried, a.Uses r t.1 := by
  have hordered := h.course_ordered a r o w
  cases hpre : tidying a r o with
  | error f =>
    rw [(hordered.refused f hpre).1]
    simp
  | ok commands =>
    obtain ⟨hfirst, -, hown⟩ := hordered.inTurn commands hpre
    rw [Course.tried, List.forall_mem_append]
    constructor
    · intro t ht
      have hmem := hfirst.subset (List.mem_map_of_mem ht)
      unfold tidying at hpre
      split at hpre
      · exact .inl ⟨commands, hpre, hmem⟩
      · cases hpre
        cases hmem
    · intro t ht
      rcases hown with ⟨-, hnone⟩ | ⟨-, -, ⟨f, -, hnone, -⟩ | ⟨command, ending, hbuild, hsome⟩⟩
      · simp [hnone] at ht
      · simp [hnone] at ht
      · rw [hsome] at ht
        obtain rfl := List.mem_singleton.mp ht
        exact .inr hbuild

theorem starts_runTool (a : Analyzer) (config : ToolConfig) (target : Path) (o : RunOptions) :
    (h.runTool a config target o).Starts fun l =>
      ∃ scratch c, a.Uses (o.request target config scratch) c ∧ h.Asks c.start l := by
  intro w
  refine (h.tried_runTool a config target o w).launched fun t ht l hl => ?_
  cases hs : h.scratchOf a w with
  | error f =>
    rw [(h.courseOf_raised hs config target o).2] at ht
    cases ht
  | ok scratch =>
    obtain ⟨v, stuck, hcourse⟩ := h.courseOf_eq hs config target o
    rw [hcourse] at ht
    exact ⟨scratch, t.1, h.course_uses a _ o v t ht, hl⟩

section
variable {target : Path} {scheduled : List Scheduled} {p : Launch → Prop}
  (hp : ∀ s ∈ scheduled, (h.runOne target o s).Starts p)
include hp

theorem starts_runInTurn : (h.runInTurn target o scheduled).Starts p := by
  induction scheduled with
  | nil => exact starts_pure []
  | cons s rest ih =>
    obtain ⟨hfirst, hrest⟩ := List.forall_mem_cons.mp hp
    exact starts_bind hfirst fun outcome => starts_bind (ih hrest) fun outcomes => starts_pure _

theorem starts_runSlots (slots : List Nat) : (h.runSlots target o scheduled slots).Starts p := by
  induction slots with
  | nil => exact starts_pure []
  | cons i rest ih =>
    rw [runSlots]
    split
    · exact ih
    · next s hs =>
      refine starts_bind (hp s (List.mem_of_getElem? hs)) fun outcome => ?_
      exact starts_bind ih fun arrivals => starts_pure _

theorem starts_runTools (jobs : Int) : (h.runTools target o scheduled jobs).Starts p := by
  unfold runTools
  split
  · exact h.starts_runInTurn hp
  · exact starts_bind (h.starts_runSlots hp _) fun arrivals => starts_pure _

end

theorem starts_lineCheck (s : Settings) (i : Inventory) (p : Launch → Prop) :
    (h.lineCheck s i).Starts p := by
  refine starts_of_eq fun w => ?_
  rcases h.lineCheck_cases s i w with ⟨checked, hrun, -⟩ | ⟨refusal, hrun, -⟩
  · rw [hrun]
  · rw [hrun]

/-- Once the precheck has passed, nothing is started but commands of the analyzers that are ready,
all of them for the same files. -/
theorem starts_runReady (s : Settings) (i : Inventory) (p : Precheck) (user bundled : Option Path) :
    (h.runReady s i p user bundled).Starts fun l => ∃ a ∈ p.ready, ∃ config scratch c,
      a.Uses ((runOptions s i).request i.root config scratch) c ∧ h.Asks c.start l := by
  unfold runReady
  refine starts_bind (starts_of_eq fun _ => rfl) fun files => ?_
  refine starts_ofExcept_bind fun scheduled hs => ?_
  refine starts_bind (h.starts_runTools ?_ _) fun raw => ?_
  · intro t ht
    have ha : t.analyzer ∈ p.ready := by
      rw [← (scheduled_of_ok hs).1]
      exact List.mem_map_of_mem ht
    refine (h.starts_runTool t.analyzer _ _ _).mono fun l => ?_
    rintro ⟨scratch, c, huses, hasks⟩
    exact ⟨t.analyzer, ha, _, scratch, c, huses, hasks⟩
  · refine starts_bind (h.starts_lineCheck s i _) fun checked => ?_
    exact starts_bind (starts_ofExcept _) fun report => starts_pure _

/-- A file that is scanned, as a path below the directory. -/
theorem text_child_of_scan {files : FileTree} {directory : Path} {exclude only : List String}
    {i : Inventory} (hw : files.WellFormed) (hs : h.scan files directory exclude only = .ok i)
    {path : String} (hpath : path ∈ i.files) :
    (i.root.child path).text = "/" ++ "/".intercalate (i.root.names ++ [path]) := by
  obtain ⟨⟨entries, hd⟩, -, -, hi, -⟩ := scan_ok hs
  obtain ⟨place, hplace, rfl⟩ := (mem_files hs path).mp hpath
  have hname := Inventory.isName_of_mem_sources _ _ _ hw entries hd place hplace
  obtain ⟨dirs, name, rfl, -⟩ := (Inventory.mem_sources _ _ _ hw entries hd place).mp hplace
  have hroot : i.root.anchor = .root := by rw [hi]; rfl
  rw [Inventory.pathText, Path.child_intercalate _ _ hname, Path.text, hroot,
    Path.intercalate_append_intercalate _ (by simp)]

/-- A launch of an analyzer that is given the files of an inventory, and nothing else to look at. -/
structure Given (h : Host) (i : Inventory) (a : Analyzer) (l : Launch) : Prop where
  asked : ∃ (r : Request) (c : Command), r.target = i.root ∧
    r.files = i.files.map i.root.child ∧ a.Uses r c ∧ h.Asks c.start l
  named : a ∈ Analyzer.filesNamed →
    ∃ front, l.args = front ++ i.files.map fun path => (i.root.child path).text

theorem given_of_uses {i : Inventory} {l : Launch} {c : Command} (hfiles : i.files ≠ [])
    (htarget : r.target = i.root) (hgiven : r.files = i.files.map i.root.child)
    (huses : a.Uses r c) (hasks : h.Asks c.start l) : h.Given i a l where
  asked := ⟨r, c, htarget, hgiven, huses, hasks⟩
  named ha := by
    have hne : r.files ≠ [] := by simpa [hgiven] using hfiles
    obtain ⟨front, rfl⟩ := (Analyzer.filesNamed_namesFiles a ha).uses hne huses
    refine ⟨front.args, hasks.args.trans ?_⟩
    rw [Command.ending, hgiven, List.map_map]
    rfl

/-- A file set replaces the words for the whole target and nothing else. Each built-in analyzer
either names the files last in its commands, after words that do not depend on them, or has the same
commands for all files. In a scan that is restricted to some files, whatever is started once the
precheck has passed is given the files that are scanned, in order, each by a path from the root on,
so that none can be taken for an option. -/
theorem runScan_files (h : Host) (g : Registry) (s : Settings) (directory : Path)
    (user bundled : Option Path) (i : Inventory) (selected : List Analyzer) (p : Precheck)
    (w v : World) (hw : w.files.WellFormed)
    (hscan : h.scan w.files directory s.exclude s.only = .ok i)
    (honly : i.scope.only.isSome = true) (hfiles : i.files ≠ [])
    (hselect : g.select i.extensions s.tools = .ok selected) (hsome : selected ≠ [])
    (hp : (h.precheck selected s.autoInstall).on w = (.ok p, v)) (hok : p.ok = true) :
    (∀ a, a ∈ Registry.builtin.analyzers ↔
        a ∈ Analyzer.filesNamed ∨ a ∈ Analyzer.filesIgnored) ∧
      (∀ a ∈ Analyzer.filesNamed, a.NamesFiles) ∧
      (∀ a ∈ Analyzer.filesIgnored, a.IgnoresFiles) ∧
      Launched (fun l => ∃ a ∈ p.ready, h.Given i a l) v
        ((h.runScan g s directory user bundled).on w).2 ∧
      ∀ path ∈ i.files,
        (i.root.child path).text = "/" ++ "/".intercalate (i.root.names ++ [path]) := by
  refine ⟨Analyzer.mem_builtin_iff, Analyzer.filesNamed_namesFiles,
    Analyzer.filesIgnored_ignoresFiles, ?_, fun path hpath => h.text_child_of_scan hw hscan hpath⟩
  rw [runScan_ready hscan hfiles hselect hsome hp hok]
  refine (h.starts_runReady s i p user bundled v).mono ?_
  rintro l ⟨a, ha, config, scratch, c, huses, hasks⟩
  exact ⟨a, ha, h.given_of_uses hfiles rfl (if_pos honly) huses hasks⟩

/-- A file whose name looks like an option. -/
def dashedTree : FileTree :=
  .directory [("repo", .directory [("-x.py", .file [] false)]),
    ("bin", .directory [("mypy", .file [] true)])]

def mypyHost : Host :=
  { sampleHost with
    programs := [(["bin", "mypy"], fun _ files => .ok { files })]
    searchPath := ["/bin"] }

def mypyRun : Except Fault ScanResult × World :=
  (mypyHost.runScan ⟨[.mypy]⟩ { only := ["-x.py"] } sampleRoot none none).on
    { files := dashedTree }

private theorem mypy_launches :
    ((mypyHost.precheck [.mypy] false).on { files := dashedTree }).1.toOption.map (·.ok) =
        some true ∧
      mypyRun.2.launches.map (·.args) =
        [["--version"], ["--output", "json", "--no-error-summary", "/repo/-x.py"]] := by
  decide +kernel

theorem runScan_files_dashed :
    ∃ (i : Inventory) (p : Precheck) (v : World),
      (mypyHost.precheck [.mypy] false).on { files := dashedTree } = (.ok p, v) ∧
      Launched (fun l => ∃ a ∈ p.ready, mypyHost.Given i a l) v mypyRun.2 ∧
      mypyRun.2.launches.map (·.args) =
        [["--version"], ["--output", "json", "--no-error-summary", "/repo/-x.py"]] ∧
      "-x.py" ∈ i.files ∧ (i.root.child "-x.py").text = "/repo/-x.py" := by
  have hw : dashedTree.WellFormed := by decide
  have hat : mypyHost.scannable dashedTree sampleRoot = .ok sampleRoot.names := rfl
  obtain ⟨whole, hwhole, hroot, hsources⟩ := scan_of_leaves hw hat rfl (by decide) (by simp)
    (by decide) (by decide)
  have hmem : "-x.py" ∈ whole.files := by
    rw [mem_files hwhole, hroot, hsources]
    decide
  have hread : (IncludeFilter.ofLines ["-x.py"]).toOption.map (fun f =>
      (f.lines, f.includes "-x.py")) = some (["-x.py"], true) := by decide +kernel
  obtain ⟨f, hf, hread⟩ := Option.map_eq_some_iff.mp hread
  obtain ⟨hlines, hincludes⟩ := Prod.mk.inj hread
  have hwanted : IncludeFilter.ofLines? ["-x.py"] = .ok (some f) := by
    rw [IncludeFilter.ofLines?_singleton (toOption_eq_some.mp hf), hlines, if_neg (by simp)]
  obtain ⟨i, hi, hsame, hlists⟩ := scan_restricted hwhole hwanted
  have hfile : "-x.py" ∈ i.files :=
    (hlists _).mpr ⟨hmem, fun g hg => Option.some.inj hg ▸ hincludes⟩
  obtain ⟨⟨entries, hd⟩, -, honly, -⟩ := scan_ok hi
  have honly : i.scope.only.isSome = true := by
    rw [Except.ok.inj (honly.symm.trans hwanted)]
    rfl
  have hpy : ".py" ∈ i.extensions := by
    obtain ⟨place, hplace, hpath⟩ := (mem_files hi _).mp hfile
    refine (mem_extensions hi _).mpr ⟨place, hplace, ?_⟩
    have hname := Inventory.isName_of_mem_sources _ _ _ hw entries hd place hplace
    rw [Inventory.extension_eq place hname, hpath]
    decide
  rcases hp : (mypyHost.precheck [.mypy] false).on { files := dashedTree } with ⟨answer, v⟩
  obtain ⟨p, rfl, hok⟩ : ∃ p, answer = .ok p ∧ p.ok = true := by
    have hpassed := mypy_launches.1
    rw [hp] at hpassed
    obtain ⟨p, hanswer, hok⟩ := Option.map_eq_some_iff.mp hpassed
    exact ⟨p, toOption_eq_some.mp hanswer, hok⟩
  have hselect : (Registry.mk [.mypy]).select i.extensions [] = .ok [.mypy] :=
    select_only rfl (by simpa [Analyzer.isRelevant, Analyzer.mypy] using .inl hpy)
  obtain ⟨-, -, -, hgiven, htext⟩ := mypyHost.runScan_files ⟨[.mypy]⟩ { only := ["-x.py"] }
    sampleRoot none none i [.mypy] p { files := dashedTree } v hw hi honly
    (List.ne_nil_of_mem hfile) hselect (by simp) hp hok
  refine ⟨i, p, v, rfl, hgiven, mypy_launches.2, hfile, ?_⟩
  rw [htext _ hfile, hsame, hroot]
  rfl

end Host
end CodeAudit
