import CodeAudit.Proofs.Scan.LineCheck
namespace CodeAudit

theorem ExitStatus.decide_ne_precheckFailed (outcomes : List Outcome) :
    decide outcomes ≠ precheckFailed := by
  unfold decide
  split <;> simp

/-- Findings decide how a scan ends. -/
theorem ExitStatus.decide_eq_findings (outcomes : List Outcome) :
    decide outcomes = findings ↔ ∃ o ∈ outcomes, o.findings ≠ [] := by
  unfold decide
  split
  · next h => simpa using h
  · next h => simpa using h

/-- A scan counts something if an outcome has findings. -/
theorem ScanResult.findingCount_pos (result : ScanResult) {o : Outcome} (ho : o ∈ result.outcomes)
    (hne : o.findings ≠ []) : 0 < result.findingCount := by
  have hfold (outcomes : List Outcome) (count : Nat) (h : 0 < count ∨ o ∈ outcomes) :
      0 < outcomes.foldl (fun count o => count + o.findings.length) count := by
    induction outcomes generalizing count with
    | nil => simpa using h
    | cons first rest ih =>
      rw [List.foldl_cons]
      apply ih
      rcases h with hpos | hmem
      · exact .inl (by omega)
      · rcases List.mem_cons.mp hmem with rfl | hmem
        · have hlength := List.length_pos_iff.mpr hne
          exact .inl (by omega)
        · exact .inr hmem
  exact hfold _ _ (.inr ho)

namespace Host
open Act Outcome
variable {h : Host} {r : Registry} {s : Settings} {directory : Path} {user bundled : Option Path}
  {result : ScanResult} {i : Inventory} {p : Precheck} {w w' : World}

/-- The ways in which a scan of some files ends, with the world that it leaves. -/
inductive Ends (h : Host) (r : Registry) (s : Settings) (user bundled : Option Path) (w : World)
    (i : Inventory) : ScanResult → World → Prop
  | noFiles {w' : World} {result : ScanResult} (hf : i.files = [])
    (hr : (h.idle s i.root Scan.noFiles).on w = (.ok result, w')) :
    Ends h r s user bundled w i result w'
  | noTools {w' : World} {result : ScanResult} (hf : i.files ≠ [])
    (hs : r.select i.extensions s.tools = .ok [])
    (hr : (h.idle s i.root Scan.noTools).on w = (.ok result, w')) :
    Ends h r s user bundled w i result w'
  | missing {selected : List Analyzer} {p : Precheck} {v : World} (hf : i.files ≠ [])
    (hs : r.select i.extensions s.tools = .ok selected) (hne : selected ≠ [])
    (hp : (h.precheck selected s.autoInstall).on w = (.ok p, v)) (hok : p.ok = false) :
    Ends h r s user bundled w i
      { status := .precheckFailed, message := p.message, warnings := p.warnings } v
  | ran {selected : List Analyzer} {p : Precheck} {v w' : World} {result : ScanResult}
    (hf : i.files ≠ []) (hs : r.select i.extensions s.tools = .ok selected) (hne : selected ≠ [])
    (hp : (h.precheck selected s.autoInstall).on w = (.ok p, v)) (hok : p.ok = true)
    (hr : (h.runReady s i p user bundled).on v = (.ok result, w')) :
    Ends h r s user bundled w i result w'

/-- A scan that comes to an answer does so in one of these ways. -/
theorem runScan_ends (hr : (h.runScan r s directory user bundled).on w = (.ok result, w')) :
    ∃ i, h.scan w.files directory s.exclude s.only = .ok i ∧
      Ends h r s user bundled w i result w' := by
  obtain ⟨files, v, hfiles, hscanned⟩ := Act.bind_eq_ok.mp hr
  cases hfiles
  obtain ⟨i, u, hi, hchosen⟩ := Act.bind_eq_ok.mp hscanned
  obtain ⟨hscan, hu⟩ := ofExcept_eq_ok.mp hi
  rw [hu] at hchosen
  refine ⟨i, hscan, ?_⟩
  split at hchosen
  · next hempty =>
    exact .noFiles (i.isEmpty_iff.mp hempty) hchosen
  · next hempty =>
    have hf : i.files ≠ [] := mt i.isEmpty_iff.mpr hempty
    obtain ⟨selected, u, hs, hchecked⟩ := Act.bind_eq_ok.mp hchosen
    obtain ⟨hselect, hu⟩ := ofExcept_eq_ok.mp hs
    rw [hu] at hchecked
    split at hchecked
    · next hnone =>
      obtain rfl := List.isEmpty_iff.mp hnone
      exact .noTools hf hselect hchecked
    · next hsome =>
      have hne : selected ≠ [] := by simpa using hsome
      obtain ⟨p, v, hp, hended⟩ := Act.bind_eq_ok.mp hchecked
      split at hended
      · next hok => exact .ran hf hselect hne hp hok hended
      · next hok =>
        cases hended
        exact .missing hf hselect hne hp (by simpa using hok)

/-- Each of the ways is one in which a scan comes to an answer. -/
theorem Ends.runScan (he : Ends h r s user bundled w i result w')
    (hscan : h.scan w.files directory s.exclude s.only = .ok i) :
    (h.runScan r s directory user bundled).on w = (.ok result, w') := by
  refine Act.bind_eq_ok.mpr ⟨w.files, w, rfl, ?_⟩
  refine Act.bind_eq_ok.mpr ⟨i, w, ofExcept_eq_ok.mpr ⟨hscan, rfl⟩, ?_⟩
  cases he with
  | noFiles hf hr =>
    rw [if_pos (i.isEmpty_iff.mpr hf)]
    exact hr
  | noTools hf hs hr =>
    rw [if_neg (mt i.isEmpty_iff.mp hf)]
    refine Act.bind_eq_ok.mpr ⟨_, w, ofExcept_eq_ok.mpr ⟨hs, rfl⟩, ?_⟩
    rw [if_pos List.isEmpty_nil]
    exact hr
  | missing hf hs hne hp hok =>
    rw [if_neg (mt i.isEmpty_iff.mp hf)]
    refine Act.bind_eq_ok.mpr ⟨_, w, ofExcept_eq_ok.mpr ⟨hs, rfl⟩, ?_⟩
    rw [if_neg (by simpa using hne)]
    refine Act.bind_eq_ok.mpr ⟨_, _, hp, ?_⟩
    rw [if_neg (by simp [hok])]
    rfl
  | ran hf hs hne hp hok hr =>
    rw [if_neg (mt i.isEmpty_iff.mp hf)]
    refine Act.bind_eq_ok.mpr ⟨_, w, ofExcept_eq_ok.mpr ⟨hs, rfl⟩, ?_⟩
    rw [if_neg (by simpa using hne)]
    refine Act.bind_eq_ok.mpr ⟨_, _, hp, ?_⟩
    rw [if_pos hok]
    exact hr

/-- A scan that ends before any analyzer is looked for changes nothing and reports on nothing but a
warning. -/
theorem idle_eq_ok {warning : String}
    (hr : (h.idle s i.root warning).on w = (.ok result, w')) :
    result.status = .clean ∧ result.outcomes = [] ∧ result.warnings = [warning] ∧ w' = w ∧
      (h.scanReport s i.root result).render s.outputFormat = .ok result.report := by
  obtain ⟨report, u, hreport, hended⟩ := Act.bind_eq_ok.mp hr
  obtain ⟨hrendered, rfl⟩ := ofExcept_eq_ok.mp hreport
  cases hended
  exact ⟨rfl, rfl, rfl, rfl, hrendered⟩

/-- A scan that does not stop at the precheck reports on its outcomes. -/
theorem Ends.reports (he : Ends h r s user bundled w i result w')
    (hne : result.status ≠ .precheckFailed) :
    result.status = .decide result.outcomes ∧
      (h.scanReport s i.root result).render s.outputFormat = .ok result.report ∧
      ∀ o ∈ result.outcomes, o.Consistent := by
  have hidle {warning : String} (hr : (h.idle s i.root warning).on w = (.ok result, w')) :
      result.status = .decide result.outcomes ∧
        (h.scanReport s i.root result).render s.outputFormat = .ok result.report ∧
        ∀ o ∈ result.outcomes, o.Consistent := by
    obtain ⟨hstatus, houtcomes, -, -, hreport⟩ := idle_eq_ok hr
    rw [hstatus, houtcomes]
    exact ⟨rfl, hreport, by simp⟩
  cases he with
  | noFiles hf hr => exact hidle hr
  | noTools hf hs hr => exact hidle hr
  | missing hf hs hsome hp hok => exact absurd rfl hne
  | ran hf hs hsome hp hok hr => exact runReady_ok hr

/-- A scan stops at the precheck exactly if an analyzer that it needs is not found and none is to be
installed, and then all it has done is to look for the analyzers. -/
theorem Ends.precheckFailed_iff (he : Ends h r s user bundled w i result w') :
    result.status = .precheckFailed ↔
      i.files ≠ [] ∧ s.autoInstall = false ∧ ∃ selected answers v,
        r.select i.extensions s.tools = .ok selected ∧ selected ≠ [] ∧
        (h.probeAll selected).on w = (.ok answers, v) ∧ ∃ a, (a, false) ∈ answers := by
  cases he with
  | noFiles hf hr => simp [(idle_eq_ok hr).1, hf]
  | noTools hf hs hr =>
    simp only [(idle_eq_ok hr).1, hs, reduceCtorEq, false_iff]
    intro h
    obtain ⟨-, -, selected, answers, v, hsame, hne, -⟩ := h
    exact hne (Except.ok.inj hsame).symm
  | missing hf hs hsome hp hok =>
    obtain ⟨answers, v, hprobed, hiff, -⟩ := h.precheck_ok hp
    obtain ⟨hoff, hmissing⟩ := hiff.mp hok
    exact ⟨fun _ => ⟨hf, hoff, _, answers, v, hs, hsome, hprobed, hmissing⟩, fun _ => rfl⟩
  | ran hf hs hsome hp hok hr =>
    obtain ⟨answers, v, hprobed, hiff, -⟩ := h.precheck_ok hp
    rw [(runReady_ok hr).1]
    refine ⟨fun hd => absurd hd (ExitStatus.decide_ne_precheckFailed _), ?_⟩
    intro h
    obtain ⟨-, hoff, selected, others, u, hsame, -, hagain, hmissing⟩ := h
    rw [hs] at hsame
    obtain rfl := Except.ok.inj hsame
    rw [hprobed] at hagain
    cases hagain
    exact absurd (hiff.mpr ⟨hoff, hmissing⟩) (by simp [hok])

theorem Ends.precheckFailed (he : Ends h r s user bundled w i result w')
    (hf : result.status = .precheckFailed) :
    result.report = "" ∧ result.outcomes = [] ∧ ∃ selected answers,
      r.select i.extensions s.tools = .ok selected ∧
      (h.probeAll selected).on w = (.ok answers, w') ∧ answers.map (·.1) = selected ∧
      (∃ text, result.message = some text ∧ Install.Lists text (unavailable answers)) ∧
      Launched (fun l => ∃ a ∈ selected, h.Asks a.probeStart l) w w' := by
  cases he with
  | noFiles hfiles hr => exact absurd ((idle_eq_ok hr).1.symm.trans hf) (by simp)
  | noTools hfiles hs hr => exact absurd ((idle_eq_ok hr).1.symm.trans hf) (by simp)
  | @missing selected p v hfiles hs hsome hp hok =>
    obtain ⟨answers, v, hprobed, -, hdone⟩ := h.precheck_ok hp
    obtain ⟨rfl, hmessage⟩ := hdone hok
    have hlaunched := h.starts_probeAll selected w
    rw [hprobed] at hlaunched
    exact ⟨rfl, rfl, selected, answers, hs, hprobed, h.probeAll_analyzers hprobed,
      ⟨_, hmessage, Install.message_lists _⟩, hlaunched⟩
  | ran hfiles hs hsome hp hok hr =>
    rw [(runReady_ok hr).1] at hf
    exact absurd hf (ExitStatus.decide_ne_precheckFailed _)

/-- How a scan ends is decided by the precheck, and if that passes, then by the findings, of which
the report in either format states as many as there are. -/
theorem runScan_status (h : Host) (r : Registry) (s : Settings) (directory : Path)
    (user bundled : Option Path) (result : ScanResult) (w w' : World)
    (hr : (h.runScan r s directory user bundled).on w = (.ok result, w')) :
    ∃ i, h.scan w.files directory s.exclude s.only = .ok i ∧
    (result.status = .precheckFailed ↔
      i.files ≠ [] ∧ s.autoInstall = false ∧ ∃ selected answers v,
        r.select i.extensions s.tools = .ok selected ∧ selected ≠ [] ∧
        (h.probeAll selected).on w = (.ok answers, v) ∧ ∃ a, (a, false) ∈ answers) ∧
    (result.status = .precheckFailed →
      result.report = "" ∧ result.outcomes = [] ∧ ∃ selected answers,
        r.select i.extensions s.tools = .ok selected ∧
        (h.probeAll selected).on w = (.ok answers, w') ∧ answers.map (·.1) = selected ∧
        (∃ text, result.message = some text ∧ Install.Lists text (unavailable answers)) ∧
        Launched (fun l => ∃ a ∈ selected, h.Asks a.probeStart l) w w') ∧
    (result.status ≠ .precheckFailed →
      (result.status = .findings ↔ ∃ o ∈ result.outcomes, o.findings ≠ []) ∧
      (result.status = .clean ↔ ∀ o ∈ result.outcomes, o.findings = []) ∧
      result.report ≠ "" ∧
      let report := h.scanReport s i.root result
      report.render s.outputFormat = .ok result.report ∧
      ∀ format t, report.render format = .ok t → report.States result.findingCount t format) := by
  obtain ⟨i, hscan, he⟩ := runScan_ends hr
  refine ⟨i, hscan, he.precheckFailed_iff, he.precheckFailed, fun hne => ?_⟩
  obtain ⟨hstatus, hreport, hconsistent⟩ := he.reports hne
  have hfindings : result.status = .findings ↔ ∃ o ∈ result.outcomes, o.findings ≠ [] := by
    rw [hstatus]
    exact ExitStatus.decide_eq_findings _
  have hstates (format : ReportFormat) (t : String)
      (ht : (h.scanReport s i.root result).render format = .ok t) :
      (h.scanReport s i.root result).States result.findingCount t format := by
    have hcount : (h.scanReport s i.root result).findings.length = result.findingCount :=
      Report.findings_length _ hconsistent
    rw [← hcount]
    exact Report.render_states ht
  refine ⟨hfindings, ?_, (hstates _ _ hreport).ne_empty, hreport, hstates⟩
  have hclean : result.status = .clean ↔ ¬ result.status = .findings := by
    cases hs : result.status with
    | clean => simp
    | findings => simp
    | precheckFailed => exact absurd hs hne
  rw [hclean, hfindings]
  simp

/-- A scan for which an analyzer is missing. -/
theorem missing_run : ∃ result w',
    (sampleHost.runScan ⟨[sampleAnalyzer]⟩ {} sampleRoot none none).on { files := sampleTree } =
      (.ok result, w') ∧ result.status = .precheckFailed := by
  obtain ⟨i, hs, -, hf⟩ := sample_scan
  have happ : "app.py" ∈ i.files := (hf _).mpr (by simp)
  have hpy : ".py" ∈ i.extensions := sample_extension hs happ
  have hrelevant : sampleAnalyzer.isRelevant i.extensions = true := by
    simpa [Analyzer.isRelevant, sampleAnalyzer] using hpy
  have hne : i.files ≠ [] := List.ne_nil_of_mem happ
  obtain ⟨p, w', hp, hok⟩ : ∃ p w', (sampleHost.precheck [sampleAnalyzer] false).on
      { files := sampleTree } = (.ok p, w') ∧ p.ok = false := ⟨_, _, rfl, rfl⟩
  have hend : Ends sampleHost ⟨[sampleAnalyzer]⟩ {} none none { files := sampleTree } i _ w' :=
    .missing hne (select_only rfl hrelevant) (by simp) hp hok
  exact ⟨_, w', hend.runScan hs, rfl⟩

/-- A scan for which no analyzer is missing and that finds a file that is too long. -/
theorem finding_run : ∃ result w',
    (sampleHost.runScan ⟨[raisingAnalyzer]⟩ shortSettings sampleRoot none none).on
      { files := longTree } = (.ok result, w') ∧
    result.status ≠ .precheckFailed ∧ ∃ o ∈ result.outcomes, o.findings ≠ [] := by
  obtain ⟨i, p, v, result, hs, hroot, hf, -, -, -, hv, hready, hrun⟩ := long_run
  have happ : "app.py" ∈ i.files := (hf _).mpr (by simp)
  have hstatus : result.status ≠ .precheckFailed := by
    rw [(runReady_ok hready).1]
    exact ExitStatus.decide_ne_precheckFailed _
  obtain ⟨exempt, before, hl, houtcomes⟩ := runReady_checked (by decide) hready
  have hexempt : (IgnoreFilter.ofLines shortSettings.lineCheckOmit).toOption.map
      (·.ignores "app.py") = some false := by
    decide +kernel
  rw [hl] at hexempt
  have hlines : LineCheck.HasLines longTree
      ((Path.mk .root sampleRoot.names).child "app.py").names 2 :=
    LineCheck.count?_eq_some_iff.mp (by decide +kernel)
  have hlong : LineCheck.finding "app.py" 2 1 ∈
      LineCheck.found longTree sampleRoot.names 1 exempt i.files :=
    LineCheck.mem_found.mpr ⟨2, rfl, happ, Option.some.inj hexempt, by decide, hlines⟩
  have hkept := findings_checkedLines (s := shortSettings) (w := { files := longTree }) v.files
    (by decide) hs
    (fun path hpath => long_noBackslash path ((hf path).mp hpath)) exempt
  have hlast := List.mem_append_right before (List.mem_singleton_self
    ((sampleHost.checkedLines shortSettings i v.files exempt).localize i.root i.scope))
  rw [← houtcomes] at hlast
  refine ⟨result, v, hrun, hstatus, _, hlast, ?_⟩
  rw [hkept, hv, hroot]
  exact List.ne_nil_of_mem hlong

/-- A scan without an analyzer that it needs has no report, and one that finds something has a
report whose title says how much. -/
theorem runScan_status_sample :
    (∃ result w', (sampleHost.runScan ⟨[sampleAnalyzer]⟩ {} sampleRoot none none).on
        { files := sampleTree } = (.ok result, w') ∧
      result.status = .precheckFailed ∧ result.report = "" ∧ result.outcomes = []) ∧
    ∃ result w' lines, (sampleHost.runScan ⟨[raisingAnalyzer]⟩ shortSettings sampleRoot none
        none).on { files := longTree } = (.ok result, w') ∧
      result.status = .findings ∧ 0 < result.findingCount ∧
      result.report = "\n".intercalate lines ∧
      Report.Markdown.title result.findingCount ∈ lines := by
  constructor
  · obtain ⟨result, w', hrun, hstatus⟩ := missing_run
    obtain ⟨i, -, -, hfailed, -⟩ := runScan_status _ _ _ _ _ _ _ _ _ hrun
    obtain ⟨hreport, houtcomes, -⟩ := hfailed hstatus
    exact ⟨result, w', hrun, hstatus, hreport, houtcomes⟩
  · obtain ⟨result, w', hrun, hstatus, hfound⟩ := finding_run
    obtain ⟨i, -, -, -, hended⟩ := runScan_status _ _ _ _ _ _ _ _ _ hrun
    obtain ⟨hfindings, -, -, hrendered, hstates⟩ := hended hstatus
    obtain ⟨lines, -, hlines, htitle, -⟩ := hstates .markdown result.report hrendered
    have hcount : 0 < result.findingCount := by
      obtain ⟨o, ho, hne⟩ := hfound
      exact result.findingCount_pos ho hne
    exact ⟨result, w', lines, hrun, hfindings.mpr hfound, hcount, hlines,
      (htitle _).mpr ⟨rfl, hcount⟩⟩

end Host
end CodeAudit
