import CodeAudit.Proofs.Analyzer.Ready
import CodeAudit.Proofs.Outcome.Local
import CodeAudit.Proofs.Report.Document
import CodeAudit.Proofs.Report.Mentions
import CodeAudit.Proofs.Run.Entries
import CodeAudit.Proofs.Scan.Inventory
import CodeAudit.Scan.Pipeline
namespace CodeAudit

/-- The line that is told of an outcome besides its findings, if there is one. -/
def Outcome.notice (x : Outcome) : List String :=
  match x.error, x.fixSkipped with
  | some e, _ => [x.tool ++ ": " ++ e]
  | none, true => [x.tool ++ ": fix skipped because the configuration is a bundled default"]
  | none, false => []

namespace LineCheck
variable {files : FileTree} {root : Place} {limit : Int} {exempt : IgnoreFilter}
  {paths : List String}

/-- The findings for files that are not exempt. -/
def found (files : FileTree) (root : Place) (limit : Int) (exempt : IgnoreFilter)
    (paths : List String) : List Finding :=
  (paths.filter (!exempt.ignores ·)).filterMap (finding? files root limit)

/-- Without patterns nothing is left out. -/
theorem not_ignores_of_nil (path : String) : IgnoreFilter.ignores ⟨[], []⟩ path = false := by
  unfold IgnoreFilter.ignores
  dsimp only
  split
  · rfl
  · rfl

/-- With a limit and patterns that are accepted, what comes of the check is what is found. -/
theorem check_of_ok {lines : List String} (hon : 0 < limit)
    (he : IgnoreFilter.ofLines lines = .ok exempt) :
    check files root paths limit lines =
      .ok { tool, findings := found files root limit exempt paths } := by
  have hpositive : ¬ limit ≤ 0 := by omega
  rw [check, if_neg hpositive]
  cases lines with
  | nil =>
    obtain rfl : IgnoreFilter.mk [] [] = exempt := Except.ok.inj he
    have hall : (fun path => !IgnoreFilter.ignores ⟨[], []⟩ path) = subject none := by
      funext path
      rw [not_ignores_of_nil]
      rfl
    rw [found, hall]
    rfl
  | cons line rest =>
    rw [he]
    rfl

theorem check_of_error {lines : List String} {refusal : Pattern.Refusal} (hon : 0 < limit)
    (he : IgnoreFilter.ofLines lines = .error refusal) :
    check files root paths limit lines = .error refusal := by
  have hpositive : ¬ limit ≤ 0 := by omega
  rw [check, if_neg hpositive]
  cases lines with
  | nil => cases he
  | cons line rest =>
    rw [he]
    rfl

end LineCheck

namespace Host
open Act Outcome
variable {h : Host} {r : Registry} {s : Settings} {directory : Path} {user bundled : Option Path}
  {i : Inventory} {p : Precheck} {selected : List Analyzer} {w v : World}

/-- What the line check comes to with patterns for what is exempt. -/
def checkedLines (h : Host) (s : Settings) (i : Inventory) (files : FileTree)
    (exempt : IgnoreFilter) : Outcome where
  tool := LineCheck.tool
  findings := LineCheck.found files i.root.names s.maxLines exempt i.files
  duration := h.elapsed LineCheck.tool

theorem lineCheck_off (hoff : s.maxLines ≤ 0) (w : World) :
    (h.lineCheck s i).on w = (.ok [], w) := by
  rw [lineCheck, if_pos hoff]
  rfl

theorem lineCheck_of_ok {exempt : IgnoreFilter} (hon : 0 < s.maxLines)
    (he : IgnoreFilter.ofLines s.lineCheckOmit = .ok exempt) (w : World) :
    (h.lineCheck s i).on w = (.ok [h.checkedLines s i w.files exempt], w) := by
  rw [lineCheck, if_neg (Int.not_le.mpr hon), on_bind_ok (on_files w), LineCheck.check_of_ok hon he,
    Pattern.faulting, on_bind_ok (on_ofExcept _ w)]
  rfl

theorem lineCheck_of_error {refusal : Pattern.Refusal} (hon : 0 < s.maxLines)
    (he : IgnoreFilter.ofLines s.lineCheckOmit = .error refusal) (w : World) :
    (h.lineCheck s i).on w = (.error (refusal.fault h.wording s.lineCheckOmit), w) := by
  rw [lineCheck, if_neg (Int.not_le.mpr hon), on_bind_ok (on_files w),
    LineCheck.check_of_error hon he, Pattern.faulting, on_bind_error (on_ofExcept _ w)]

/-- The line check only looks at the files, and fails only if a pattern for what is exempt is
refused. -/
theorem lineCheck_cases (h : Host) (s : Settings) (i : Inventory) (w : World) :
    (∃ checked, (h.lineCheck s i).on w = (.ok checked, w) ∧
      checked.map (fun x => (x.tool, x.error)) =
        if 0 < s.maxLines then [(LineCheck.tool, none)] else []) ∨
      ∃ refusal, (h.lineCheck s i).on w =
          (.error (Pattern.Refusal.fault h.wording s.lineCheckOmit refusal), w) ∧
        0 < s.maxLines ∧ IgnoreFilter.ofLines s.lineCheckOmit = .error refusal := by
  by_cases hon : 0 < s.maxLines
  · rw [if_pos hon]
    cases he : IgnoreFilter.ofLines s.lineCheckOmit with
    | ok exempt => exact .inl ⟨_, lineCheck_of_ok hon he w, rfl⟩
    | error refusal => exact .inr ⟨refusal, lineCheck_of_error hon he w, hon, rfl⟩
  · rw [if_neg hon]
    exact .inl ⟨[], lineCheck_off (Int.not_lt.mp hon) w, rfl⟩

theorem lineCheck_consistent {outcomes : List Outcome}
    (hr : (h.lineCheck s i).on w = (.ok outcomes, w')) : ∀ o ∈ outcomes, o.Consistent := by
  rcases h.lineCheck_cases s i w with ⟨checked, hchecked, hshape⟩ | ⟨refusal, hfailed, -⟩
  · cases hr.symm.trans hchecked
    intro o ho
    have hshaped : (o.tool, o.error) ∈ outcomes.map fun x => (x.tool, x.error) :=
      List.mem_map_of_mem ho
    rw [hshape] at hshaped
    split at hshaped
    · exact consistent_of_no_error (Prod.mk.inj (List.mem_singleton.mp hshaped)).2
    · cases hshaped
  · cases hr.symm.trans hfailed

/-- The report of a scan as it is put together. -/
def scanReport (h : Host) (s : Settings) (root : Path) (result : ScanResult) : Report :=
  { target := root, outcomes := result.outcomes, warnings := result.warnings, fix := s.fix
    date := h.date }

/-- What is gathered from outcomes, but for the report on them. -/
def gathered (i : Inventory) (p : Precheck) (raw : List Outcome) : ScanResult where
  status := .decide (raw.map (·.localize i.root i.scope))
  report := ""
  outcomes := raw.map (·.localize i.root i.scope)
  warnings := p.warnings ++ (raw.map (·.localize i.root i.scope)).filterMap Scan.warning?
  scanned := some i.files

/-- A scan from the analyzers that are ready on comes to an answer if each of its steps does: the
configurations, the analyzers, the line check and the report. -/
theorem runReady_eq_ok :
    (h.runReady s i p user bundled).on w = (.ok result, w') ↔
      ∃ scheduled raw v checked report,
        (p.ready.mapM fun a =>
          (h.configOf w.files a.name i.root user bundled).map (Scheduled.mk a)) = .ok scheduled ∧
        (h.runTools i.root (runOptions s i) scheduled s.jobs).on w = (.ok raw, v) ∧
        (h.lineCheck s i).on v = (.ok checked, w') ∧
        (h.scanReport s i.root (gathered i p (raw ++ checked))).render s.outputFormat =
          .ok report ∧
        { gathered i p (raw ++ checked) with report } = result := by
  constructor
  · intro hr
    obtain ⟨files, u, hfiles, hr⟩ := Act.bind_eq_ok.mp hr
    cases hfiles
    obtain ⟨scheduled, u, hscheduled, hran⟩ := Act.bind_eq_ok.mp hr
    obtain ⟨hscheduled, rfl⟩ := ofExcept_eq_ok.mp hscheduled
    obtain ⟨raw, v, hraw, hlater⟩ := Act.bind_eq_ok.mp hran
    obtain ⟨checked, u, hchecked, hreported⟩ := Act.bind_eq_ok.mp hlater
    obtain ⟨report, u, hreport, hended⟩ := Act.bind_eq_ok.mp hreported
    obtain ⟨hrendered, rfl⟩ := ofExcept_eq_ok.mp hreport
    cases hended
    exact ⟨scheduled, raw, v, checked, report, hscheduled, hraw, hchecked, hrendered, rfl⟩
  · intro hr
    obtain ⟨scheduled, raw, v, checked, report, hscheduled, hraw, hchecked, hrendered, rfl⟩ := hr
    refine Act.bind_eq_ok.mpr ⟨w.files, w, rfl, ?_⟩
    refine Act.bind_eq_ok.mpr ⟨scheduled, w, ofExcept_eq_ok.mpr ⟨hscheduled, rfl⟩, ?_⟩
    refine Act.bind_eq_ok.mpr ⟨raw, v, hraw, ?_⟩
    refine Act.bind_eq_ok.mpr ⟨checked, w', hchecked, ?_⟩
    exact Act.bind_eq_ok.mpr ⟨report, w', ofExcept_eq_ok.mpr ⟨hrendered, rfl⟩, rfl⟩

/-- What is known of a scan from the analyzers that are ready on. -/
theorem runReady_ok (hr : (h.runReady s i p user bundled).on w = (.ok result, w')) :
    result.status = .decide result.outcomes ∧
      (h.scanReport s i.root result).render s.outputFormat = .ok result.report ∧
      ∀ o ∈ result.outcomes, o.Consistent := by
  obtain ⟨scheduled, raw, v, checked, report, -, hraw, hchecked, hrendered, rfl⟩ :=
    runReady_eq_ok.mp hr
  refine ⟨rfl, hrendered, fun o ho => ?_⟩
  obtain ⟨x, hx, rfl⟩ := List.mem_map.mp ho
  rcases List.mem_append.mp hx with hx | hx
  · exact (h.runTools_consistent hraw x hx).localize _ _
  · exact (lineCheck_consistent hchecked x hx).localize _ _

/-- An entry of an analyzer is what it came to with its configuration, with its findings as read
from the directory. -/
structure Entry (h : Host) (s : Settings) (user bundled : Option Path) (i : Inventory)
    (files : FileTree) (a : Analyzer) (x : Outcome) : Prop where
  came : ∃ config raw, h.configOf files a.name i.root user bundled = .ok config ∧
    h.CameTo i.root (runOptions s i) ⟨a, config⟩ raw ∧
    x = raw.localize i.root i.scope ∧ x.error = raw.error
  tool : x.tool = a.name

/-- One entry for each analyzer that is ready, in order, and one for the line check if there is a
limit. -/
def Entries (h : Host) (s : Settings) (user bundled : Option Path) (i : Inventory)
    (files : FileTree) (ready : List Analyzer) (outcomes : List Outcome) : Prop :=
  ∃ own checked, outcomes = own ++ checked ∧
    List.Forall₂ (h.Entry s user bundled i files) ready own ∧
    checked.map (fun x => (x.tool, x.error)) = if 0 < s.maxLines then [("line-check", none)] else []

/-- What can stop a scan once the precheck has passed: a path for the configuration of an analyzer
of which it cannot be said whether it can be read, a refused pattern for what the line check leaves
out, and a number in a finding that is too long to be written. -/
inductive Stops (h : Host) (s : Settings) (user bundled : Option Path) (i : Inventory)
    (p : Precheck) (files : FileTree) : Fault → Prop
  | configuration {a : Analyzer} {f : Fault} (ha : a ∈ p.ready)
    (hf : h.configOf files a.name i.root user bundled = .error f) :
    Stops h s user bundled i p files f
  | exempt {refusal : Pattern.Refusal} (hon : 0 < s.maxLines)
    (hr : IgnoreFilter.ofLines s.lineCheckOmit = .error refusal) :
    Stops h s user bundled i p files (refusal.fault h.wording s.lineCheckOmit)
  | number (result : ScanResult) (he : h.Entries s user bundled i files p.ready result.outcomes)
    (hw : result.warnings = p.warnings ++ result.outcomes.flatMap notice)
    (hn : ¬ (h.scanReport s i.root result).Legible) :
    Stops h s user bundled i p files .numberUnwritable

theorem legible_localize {root : Path} {scope : Scope} {o : Outcome}
    (ho : ∀ f ∈ o.findings, f.Legible) : ∀ f ∈ (o.localize root scope).findings, f.Legible := by
  unfold localize
  split
  · exact ho
  · intro f hf
    obtain ⟨hmem, -⟩ := List.mem_filter.mp hf
    obtain ⟨g, hg, rfl⟩ := List.mem_map.mp hmem
    exact ⟨(ho g hg).line, (ho g hg).column⟩

/-- Analyzers are scheduled in order, each with its configuration. -/
theorem scheduled_of_ok {f : Analyzer → Except Fault ToolConfig} {as : List Analyzer}
    {scheduled : List Scheduled}
    (hs : as.mapM (fun a => (f a).map (Scheduled.mk a)) = .ok scheduled) :
    scheduled.map (·.analyzer) = as ∧ ∀ s ∈ scheduled, f s.analyzer = .ok s.config := by
  induction as generalizing scheduled with
  | nil =>
    cases hs
    simp
  | cons a rest ih =>
    rw [List.mapM_cons] at hs
    obtain ⟨s, hfirst, hs⟩ := CodeAudit.bind_eq_ok.mp hs
    obtain ⟨others, hothers, hs⟩ := CodeAudit.bind_eq_ok.mp hs
    obtain ⟨config, hconfig, rfl⟩ := map_eq_ok.mp hfirst
    obtain ⟨hnames, hconfigs⟩ := ih hothers
    cases hs
    exact ⟨by rw [List.map_cons, hnames], List.forall_mem_cons.mpr ⟨hconfig, hconfigs⟩⟩

/-- Once the precheck has passed, a scan is what comes of the analyzers that are ready. -/
theorem runScan_ready (hscan : h.scan w.files directory s.exclude s.only = .ok i)
    (hfiles : i.files ≠ []) (hselect : r.select i.extensions s.tools = .ok selected)
    (hsome : selected ≠ []) (hp : (h.precheck selected s.autoInstall).on w = (.ok p, v))
    (hok : p.ok = true) :
    (h.runScan r s directory user bundled).on w = (h.runReady s i p user bundled).on v := by
  have hscanned : (ofExcept (h.scan w.files directory s.exclude s.only)).on w = (.ok i, w) := by
    rw [on_ofExcept, hscan]
  have hselected : (ofExcept (r.select i.extensions s.tools)).on w = (.ok selected, w) := by
    rw [on_ofExcept, hselect]
  have hempty : ¬ i.isEmpty = true := mt i.isEmpty_iff.mp hfiles
  have hnone : ¬ selected.isEmpty = true := by simpa using hsome
  rw [runScan, on_bind_ok (on_files w), on_bind_ok hscanned, if_neg hempty, on_bind_ok hselected,
    if_neg hnone, on_bind_ok hp, if_pos hok]

/-- An analyzer that is not there. -/
def sampleAnalyzer : Analyzer where
  name := "probe"
  extensions := [".py"]
  installHint := "pip install probe"
  presence := .told 0 [.ok false]
  build _ := .error .emptyCommand
  read _ := .ok (.findings [])

theorem select_only {a : Analyzer} {extensions : List String} (hopt : a.optIn = false)
    (hr : a.isRelevant extensions = true) : (Registry.mk [a]).select extensions [] = .ok [a] := by
  have hunknown : Registry.sortedDistinct [] = [] := by simp [Registry.sortedDistinct]
  simp [Registry.select, hunknown, hopt, hr]

theorem sample_extension {i : Inventory}
    (hs : sampleHost.scan sampleTree sampleRoot [] [] = .ok i) (hf : "app.py" ∈ i.files) :
    ".py" ∈ i.extensions := by
  obtain ⟨⟨entries, hd⟩, -⟩ := scan_ok hs
  obtain ⟨place, hplace, htext⟩ := (mem_files hs "app.py").mp hf
  have hn := Inventory.isName_of_mem_sources _ _ _ sampleTree_wellFormed entries hd place hplace
  refine (mem_extensions hs ".py").mpr ⟨place, hplace, ?_⟩
  rw [Inventory.extension_eq place hn, htext]
  decide

/-- An analyzer that is there and raises something without a text. -/
def raisingAnalyzer : Analyzer :=
  { sampleAnalyzer with
    presence := .told 0 [.ok true], build := fun _ => .error (.raised "KeyError" "") }

/-- What comes of an analyzer that raises something. -/
def raised : Outcome :=
  { tool := "probe", error := some "KeyError", duration := sampleHost.elapsed "probe" }

theorem runTools_raising (i : Inventory) (hfix : s.fix = false) (config : ToolConfig) (w : World) :
    (sampleHost.runTools i.root (runOptions s i) [⟨raisingAnalyzer, config⟩] s.jobs).on w =
      (.ok [raised], w) := by
  rw [runTools, if_pos (by simp), runOptions, hfix]
  rfl

/-- A scan with an analyzer that raises something comes to an answer, if it has a configuration and
the line check finds no number that is too long. -/
theorem runReady_raising {config : ToolConfig} {checked : List Outcome}
    (hfix : s.fix = false) (hformat : s.outputFormat = .markdown)
    (hready : p.ready = [raisingAnalyzer])
    (hconfig : sampleHost.configOf w.files "probe" i.root none none = .ok config)
    (hchecked : (sampleHost.lineCheck s i).on w = (.ok checked, w))
    (hlegible : ∀ o ∈ checked, ∀ f ∈ o.findings, f.Legible) :
    ∃ result, (sampleHost.runReady s i p none none).on w = (.ok result, w) ∧
      result.outcomes = (raised :: checked).map (·.localize i.root i.scope) := by
  have hscheduled : p.ready.mapM (fun a =>
      (sampleHost.configOf w.files a.name i.root none none).map (Scheduled.mk a)) =
        .ok [⟨raisingAnalyzer, config⟩] := by
    have hnamed : sampleHost.configOf w.files raisingAnalyzer.name i.root none none =
        .ok config := hconfig
    rw [hready, List.mapM_cons, hnamed]
    rfl
  have hfindings : ∀ f ∈ (sampleHost.scanReport s i.root
      (gathered i p (raised :: checked))).findings.map (·.2), f.Legible := by
    intro f hf
    obtain ⟨⟨tool, f⟩, hmem, rfl⟩ := List.mem_map.mp hf
    obtain ⟨o, ho, hfo⟩ := List.mem_flatMap.mp hmem
    obtain ⟨g, hg, hsame⟩ := List.mem_map.mp hfo
    cases hsame
    obtain ⟨x, hx, rfl⟩ := List.mem_map.mp (List.mem_filter.mp ho).1
    refine legible_localize (fun f hf => ?_) f hg
    rcases List.mem_cons.mp hx with rfl | hx
    · cases hf
    · exact hlegible x hx f hf
  have hrendered := (Report.Markdown.prints_text _).answers hfindings
  rw [show Report.Markdown.text _ = Report.render _ .markdown from rfl, ← hformat] at hrendered
  exact ⟨_, runReady_eq_ok.mpr ⟨_, [raised], w, checked, _, hscheduled,
    runTools_raising i hfix config w, hchecked, hrendered, rfl⟩, rfl⟩

/-- A scan with an analyzer that raises something and is there comes to an answer, if it has a
configuration and the line check finds no number that is too long. -/
theorem raising_run {files : FileTree} {config : ToolConfig} {checked : List Outcome}
    (htools : s.tools = []) (hinstall : s.autoInstall = false) (hfix : s.fix = false)
    (hformat : s.outputFormat = .markdown)
    (hs : sampleHost.scan files sampleRoot s.exclude s.only = .ok i) (hfiles : i.files ≠ [])
    (hpy : ".py" ∈ i.extensions)
    (hconfig : sampleHost.configOf files "probe" i.root none none = .ok config)
    (hchecked : ∀ v, v.files = files → (sampleHost.lineCheck s i).on v = (.ok checked, v))
    (hlegible : ∀ o ∈ checked, ∀ f ∈ o.findings, f.Legible) : ∃ p v result,
      (Registry.mk [raisingAnalyzer]).select i.extensions s.tools = .ok [raisingAnalyzer] ∧
      (sampleHost.precheck [raisingAnalyzer] s.autoInstall).on { files } = (.ok p, v) ∧
      p.ok = true ∧ v.files = files ∧
      (sampleHost.runReady s i p none none).on v = (.ok result, v) ∧
      (sampleHost.runScan ⟨[raisingAnalyzer]⟩ s sampleRoot none none).on { files } =
        (.ok result, v) ∧
      result.outcomes = (raised :: checked).map (·.localize i.root i.scope) := by
  have hselect : (Registry.mk [raisingAnalyzer]).select i.extensions s.tools =
      .ok [raisingAnalyzer] := by
    rw [htools]
    exact select_only rfl (by simpa [Analyzer.isRelevant, raisingAnalyzer, sampleAnalyzer] using hpy)
  obtain ⟨p, v, hp, hok, hready, hv⟩ : ∃ p v,
      (sampleHost.precheck [raisingAnalyzer] s.autoInstall).on { files } = (.ok p, v) ∧
        p.ok = true ∧ p.ready = [raisingAnalyzer] ∧ v.files = files := by
    rw [hinstall]
    exact ⟨_, _, rfl, rfl, rfl, rfl⟩
  obtain ⟨result, hran, houtcomes⟩ :=
    runReady_raising hfix hformat hready (hv ▸ hconfig) (hchecked v hv) hlegible
  have hend : (sampleHost.runScan ⟨[raisingAnalyzer]⟩ s sampleRoot none none).on { files } =
      (sampleHost.runReady s i p none none).on v :=
    runScan_ready hs hfiles hselect (by simp) hp hok
  exact ⟨p, v, result, hselect, hp, hok, hv, hran, hend.trans hran, houtcomes⟩

end Host
end CodeAudit
