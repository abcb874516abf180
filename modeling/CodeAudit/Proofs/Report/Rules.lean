import CodeAudit.Proofs.Report.Count
namespace CodeAudit.Report.Sarif

/-- The value at the end of a path of names. -/
def at? : List String → Json → Option Json
  | [], v => some v
  | n :: path, v => (Fields.find? n v.fields).bind (at? path)

/-- A part of the only run that a document tells of. -/
def part? (path : List String) (document : Json) : Option Json :=
  match at? ["runs"] document with
  | some (.list [run]) => at? path run
  | _ => none

def ids (rs : List (String × String)) : List String := rs.map (·.1)

theorem ids_rules_cons (f : Finding) (fs : List Finding) :
    ids (rules (f :: fs)) = f.rule :: (ids (rules fs)).filter (· != f.rule) := by
  have hfilter : ids ((rules fs).filter (·.1 != f.rule)) =
      (ids (rules fs)).filter (· != f.rule) := by
    rw [ids, ids, List.filter_map]
    rfl
  rw [rules, ← hfilter]
  rfl

theorem mem_ids_rules (fs : List Finding) (id : String) :
    id ∈ ids (rules fs) ↔ id ∈ fs.map (·.rule) := by
  induction fs with
  | nil => rfl
  | cons f fs ih =>
    rw [ids_rules_cons, List.map_cons, List.mem_cons, List.mem_cons, List.mem_filter, ih]
    by_cases h : id = f.rule
    · simp [h]
    · simp [h]

/-- Where a rule is used first. -/
def firstUse (fs : List Finding) (id : String) : Nat := (fs.map (·.rule)).idxOf id

theorem firstUse_cons_of_ne {f : Finding} {id : String} (h : id ≠ f.rule) (fs : List Finding) :
    firstUse (f :: fs) id = firstUse fs id + 1 := by
  have hne : (f.rule == id) = false := beq_eq_false_iff_ne.mpr (Ne.symm h)
  rw [firstUse, List.map_cons, List.idxOf_cons, hne]
  rfl

/-- Rules stand in the order in which they are used first. -/
theorem ids_increasing (fs : List Finding) :
    (ids (rules fs)).Pairwise fun a b => firstUse fs a < firstUse fs b := by
  induction fs with
  | nil => exact .nil
  | cons f fs ih =>
    rw [ids_rules_cons, List.pairwise_cons]
    constructor
    · intro b hb
      have hne : b ≠ f.rule := by simpa using (List.mem_filter.mp hb).2
      have hfirst : firstUse (f :: fs) f.rule = 0 := List.idxOf_cons_self
      rw [hfirst, firstUse_cons_of_ne hne]
      exact Nat.succ_pos _
    · apply (ih.filter _).imp_of_mem
      intro a b ha hb hlt
      have hane : a ≠ f.rule := by simpa using (List.mem_filter.mp ha).2
      have hbne : b ≠ f.rule := by simpa using (List.mem_filter.mp hb).2
      rw [firstUse_cons_of_ne hane, firstUse_cons_of_ne hbne]
      exact Nat.succ_lt_succ hlt

theorem ids_nodup (fs : List Finding) : (ids (rules fs)).Nodup := by
  apply (ids_increasing fs).imp
  intro a b hlt he
  subst he
  exact Nat.lt_irrefl _ hlt

/-- The index of a rule that is there leads back to it. -/
theorem getElem?_ruleIndex {rs : List (String × String)} {id : String} (h : id ∈ ids rs) :
    ∃ tag, rs[ruleIndex rs id]? = some (id, tag) := by
  obtain ⟨⟨known, tag⟩, hmem, rfl⟩ := List.mem_map.mp h
  have hlt : ruleIndex rs known < rs.length :=
    List.findIdx_lt_length_of_exists ⟨(known, tag), hmem, beq_self_eq_true known⟩
  have hfound : (rs[ruleIndex rs known].1 == known) = true :=
    List.findIdx_getElem (w := hlt)
  refine ⟨rs[ruleIndex rs known].2, ?_⟩
  rw [List.getElem?_eq_getElem hlt]
  exact congrArg some (Prod.ext (beq_iff_eq.mp hfound) rfl)

theorem part?_rules (r : Report) :
    part? ["tool", "driver", "rules"] (document r) =
      some (.list ((rules (r.findings.map (·.2))).map fun (id, tag) => rule id tag)) := by
  simp [part?, at?, document, Data.fields, Fields.find?, List.lookup_cons]

theorem part?_results (r : Report) :
    part? ["results"] (document r) = some (.list
      (r.findings.map fun (tool, f) => result (rules (r.findings.map (·.2))) tool f)) := by
  simp [part?, at?, document, Data.fields, Fields.find?, List.lookup_cons]

theorem at?_rule (id tag : String) : at? ["id"] (rule id tag) = some (.text id) := by
  simp [at?, rule, Data.fields, Fields.find?]

/-- A result says which rule was broken and where that rule stands, with the message and the tag of
the finding and the analyzer that reports it. -/
structure Says (x : Json) (index : Nat) (tool : String) (f : Finding) : Prop where
  rule : at? ["ruleId"] x = some (.text f.rule)
  index : at? ["ruleIndex"] x = some (.int index)
  message : at? ["message", "text"] x = some (.text f.message)
  tag : at? ["properties", "tag"] x = some (.text f.tag)
  tool : at? ["properties", "sourceTool"] x = some (.text tool)

theorem result_says (rs : List (String × String)) (tool : String) (f : Finding) :
    Says (result rs tool f) (ruleIndex rs f.rule) tool f := by
  constructor
  all_goals simp [at?, result, Data.fields, Fields.find?, List.lookup_cons]

/-- A document has one result for each finding, in order, and one rule for each that is broken, in
order of first use; the index in a result leads to its rule. -/
theorem document_rules (r : Report) :
    ∃ (names : List String) (rules results : List Json),
      part? ["tool", "driver", "rules"] (document r) = some (.list rules) ∧
      part? ["results"] (document r) = some (.list results) ∧
      rules.map (at? ["id"]) = names.map (fun id => some (.text id)) ∧
      names.Nodup ∧
      (∀ id, id ∈ names ↔ ∃ e ∈ r.findings, e.2.rule = id) ∧
      names.Pairwise (fun a b =>
        (r.findings.map (·.2.rule)).idxOf a < (r.findings.map (·.2.rule)).idxOf b) ∧
      results.length = r.findings.length ∧
      ∀ (i : Nat) tool f, r.findings[i]? = some (tool, f) →
        ∃ (x : Json) (index : Nat) (named : Json), results[i]? = some x ∧ Says x index tool f ∧
          rules[index]? = some named ∧ at? ["id"] named = some (.text f.rule) := by
  let fs := r.findings.map (·.2)
  have hmem (id : String) : id ∈ ids (rules fs) ↔ ∃ e ∈ r.findings, e.2.rule = id := by
    rw [mem_ids_rules, List.map_map, List.mem_map]
    rfl
  have hfirst : r.findings.map (·.2.rule) = fs.map (·.rule) := by simp [fs]
  refine ⟨ids (rules fs), _, _, part?_rules r, part?_results r, ?_, ids_nodup fs, hmem, ?_, ?_, ?_⟩
  · simp [ids, at?_rule, fs]
  · rw [hfirst]
    exact ids_increasing fs
  · rw [List.length_map]
  · intro i tool f hi
    have hused : f.rule ∈ ids (rules fs) := (hmem f.rule).mpr ⟨_, List.mem_of_getElem? hi, rfl⟩
    obtain ⟨tag, hfound⟩ := getElem?_ruleIndex hused
    refine ⟨result (rules fs) tool f, ruleIndex (rules fs) f.rule, rule f.rule tag, ?_,
      result_says _ tool f, ?_, at?_rule _ _⟩
    · rw [List.getElem?_map, hi]
      rfl
    · rw [List.getElem?_map, hfound]
      rfl

end CodeAudit.Report.Sarif
