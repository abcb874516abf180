import CodeAudit.Proofs.Analyzer.WellFormed
import CodeAudit.Proofs.Report.Rules
namespace CodeAudit

/-- A finding that a built-in analyzer reports, whatever its file is called in the end. -/
def Finding.Reported (f : Finding) : Prop :=
  ∃ a ∈ Registry.builtin.analyzers, ∃ o fs, a.read o = .ok (.findings fs) ∧
    ∃ g ∈ fs, f = { g with file := f.file }

namespace Report.Sarif

mutual
/-- The values that a field has anywhere in a document, in order. -/
def under (name : String) : Json → List Json
  | .list items => underItems name items
  | .record fields => underFields name fields
  | _ => []

def underItems (name : String) : List Json → List Json
  | [] => []
  | v :: vs => under name v ++ underItems name vs

def underFields (name : String) : List (String × Json) → List Json
  | [] => []
  | (n, v) :: rest => (if n = name then [v] else []) ++ under name v ++ underFields name rest
end

theorem underItems_eq (name : String) (vs : List Json) :
    underItems name vs = vs.flatMap (under name) := by
  induction vs with
  | nil => rfl
  | cons v vs ih => rw [underItems, ih, List.flatMap_cons]

theorem underFields_append (name : String) (fields more : List (String × Json)) :
    underFields name (fields ++ more) = underFields name fields ++ underFields name more := by
  induction fields with
  | nil => rfl
  | cons field fields ih => simp only [List.cons_append, underFields, ih, List.append_assoc]

theorem under_rule (id tag : String) : under "region" (rule id tag) = [] := by
  simp [rule, under, underFields]

theorem under_result (rs : List (String × String)) (tool : String) (f : Finding) :
    under "region" (result rs tool f) = [region f] := by
  have hinside : under "region" (region f) = [] := by
    rw [region, under, underFields]
    cases f.col <;> simp [under, underFields]
  simp [result, location, under, underItems, underFields, hinside]

theorem under_properties (r : Report) : under "region" (properties r) = [] := by
  have hduration : under "region" (totalDuration r) = [] := by
    rw [totalDuration]
    split <;> rfl
  have hshares : (r.successes.map share).flatMap (under "region") = [] := by
    simp [List.flatMap_map, share, under, underFields]
  have hwarnings : underFields "region"
      (if r.warnings.isEmpty then [] else [("warnings", .list (r.warnings.map .text))]) = [] := by
    split <;> simp [under, underFields, underItems_eq]
  have hfix : underFields "region" (if r.fix then [("fixMode", .bool true)] else []) = [] := by
    split <;> rfl
  simp only [properties, under, underFields_append, underFields, underItems_eq, hduration, hshares,
    hwarnings, hfix, String.reduceEq, ↓reduceIte, List.append_nil]

/-- A document has a region for each finding, and no other. -/
theorem under_region (r : Report) :
    under "region" (document r) = r.findings.map fun e => region e.2 := by
  let rs := rules (r.findings.map (·.2))
  have hrules : (rs.map fun e => rule e.1 e.2).flatMap (under "region") = [] := by
    simp [List.flatMap_map, under_rule]
  have hresults : (r.findings.map fun e => result rs e.1 e.2).flatMap (under "region") =
      r.findings.map fun e => region e.2 := by
    rw [List.flatMap_map, List.map_eq_flatMap]
    simp only [under_result]
  simp only [document, under, underFields, underItems, underItems_eq, under_properties,
    String.reduceEq, ↓reduceIte, List.append_nil, List.nil_append]
  rw [hrules, hresults, List.nil_append]

/-- A region starts in a line, and maybe a column, that count from one. -/
structure Placed (v : Json) : Prop where
  line : ∃ n : Int, at? ["startLine"] v = some (.int n) ∧ 1 ≤ n
  column : ∀ c, at? ["startColumn"] v = some c → ∃ n : Int, c = .int n ∧ 1 ≤ n

theorem region_placed {f : Finding} (hline : 0 ≤ f.line) (hcol : ∀ c, f.col = some c → 1 ≤ c) :
    Placed (region f) := by
  constructor
  · refine ⟨if f.line = 0 then 1 else f.line, by simp [at?, region, Data.fields, Fields.find?], ?_⟩
    split
    · exact Int.le_refl 1
    · omega
  · intro c hc
    cases hfound : f.col with
    | none => simp [at?, region, Data.fields, Fields.find?, hfound, List.lookup_cons] at hc
    | some n =>
      have hn : Data.int n = c := by
        simpa [at?, region, Data.fields, Fields.find?, hfound, List.lookup_cons] using hc
      exact ⟨n, hn.symm, hcol n hfound⟩

/-- Whatever output a built-in analyzer reads, its findings are well formed, and a document that
tells only of such findings has all its regions in lines and columns that count from one. -/
theorem builtin_wellFormed_placed :
    (∀ a ∈ Registry.builtin.analyzers, ∀ o reading, a.read o = .ok reading →
      ∃ fs, reading = .findings fs ∧ ∀ f ∈ fs, f.WellFormed) ∧
    ∀ r : Report, (∀ e ∈ r.findings, e.2.Reported) →
      ∀ v ∈ under "region" (document r), Placed v := by
  constructor
  · intro a ha o
    exact Analyzer.builtin_sound o a ha
  · intro r hreported v hv
    rw [under_region] at hv
    obtain ⟨e, he, rfl⟩ := List.mem_map.mp hv
    obtain ⟨a, ha, o, fs, hread, g, hg, heq⟩ := hreported e he
    obtain ⟨fs', hfs, hall⟩ := Analyzer.builtin_sound o a ha _ hread
    cases hfs
    have hwell : g.WellFormed := hall g hg
    rw [heq]
    exact region_placed hwell.line hwell.col

def tscOutput : Output := { stdout := "a.ts(3,7): error TS2304: x", status := 2 }

def tscFinding : Finding :=
  { file := "a.ts", line := 3, col := some 7, tag := Tag.typeError.text, rule := "TS2304",
    severity := .error, message := "x" }

theorem tscFinding_placed : tscFinding.WellFormed ∧ Placed (region tscFinding) := by
  have hread : Analyzer.tsc.read tscOutput = .ok (.findings [tscFinding]) := rfl
  have hbuiltin : Analyzer.tsc ∈ Registry.builtin.analyzers := by simp [Registry.builtin]
  constructor
  · obtain ⟨fs, hfs, hall⟩ := builtin_wellFormed_placed.1 _ hbuiltin _ _ hread
    cases hfs
    exact hall tscFinding List.mem_cons_self
  · let r : Report :=
      { target := ⟨.root, []⟩, outcomes := [{ tool := "tsc", findings := [tscFinding] }],
        date := .ofSeconds 0 }
    refine builtin_wellFormed_placed.2 r ?_ _ ?_
    · intro e he
      cases List.mem_singleton.mp he
      exact ⟨_, hbuiltin, tscOutput, _, hread, tscFinding, List.mem_cons_self, rfl⟩
    · rw [under_region]
      exact List.mem_cons_self

end Report.Sarif
end CodeAudit
