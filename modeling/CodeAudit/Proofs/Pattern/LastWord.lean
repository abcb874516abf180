import CodeAudit.Pattern.Filter
namespace CodeAudit.Pattern
variable {patterns : List Pattern} {cs : List Char} {p : Pattern}

/-- A pattern decides about a path: no later one matches it otherwise than by a directory, and if
this one matches by a directory, then no later one matches at all and none otherwise. -/
def LastWord (patterns : List Pattern) (cs : List Char) (p : Pattern) : Prop :=
  ∃ earlier later, patterns = earlier ++ p :: later ∧
    (p.shape.hit? cs = some .file ∧ (∀ q ∈ later, q.shape.hit? cs ≠ some .file) ∨
      p.shape.hit? cs = some .directory ∧ (∀ q ∈ later, q.shape.hit? cs = none) ∧
        ∀ q ∈ earlier, q.shape.hit? cs ≠ some .file)

private theorem verdictFrom_file (pending : Option Bool) (later earlier : List Pattern)
    (hl : ∀ q ∈ later, q.shape.hit? cs ≠ some .file) (hp : p.shape.hit? cs = some .file) :
    verdictFrom pending cs (later ++ p :: earlier) = !p.negated := by
  induction later generalizing pending with
  | nil => rw [List.nil_append, verdictFrom, hp]
  | cons q later ih =>
    obtain ⟨hq, hl⟩ := List.forall_mem_cons.mp hl
    rw [List.cons_append, verdictFrom]
    split
    · exact ih pending hl
    · exact ih _ hl
    · next h => exact absurd h hq

private theorem verdictFrom_skip (pending : Option Bool) (later earlier : List Pattern)
    (hl : ∀ q ∈ later, q.shape.hit? cs = none) :
    verdictFrom pending cs (later ++ earlier) = verdictFrom pending cs earlier := by
  induction later with
  | nil => rfl
  | cons q later ih =>
    obtain ⟨hq, hl⟩ := List.forall_mem_cons.mp hl
    rw [List.cons_append, verdictFrom, hq]
    exact ih hl

private theorem verdictFrom_pending (b : Bool) (earlier : List Pattern)
    (he : ∀ q ∈ earlier, q.shape.hit? cs ≠ some .file) :
    verdictFrom (some b) cs earlier = b := by
  induction earlier with
  | nil => rfl
  | cons q earlier ih =>
    obtain ⟨hq, he⟩ := List.forall_mem_cons.mp he
    rw [verdictFrom]
    split
    · exact ih he
    · exact ih he
    · next h => exact absurd h hq

/-- A pattern that has the last word picks a path out exactly if it is not negated. -/
theorem LastWord.verdict_eq (h : LastWord patterns cs p) : verdict patterns cs = !p.negated := by
  obtain ⟨earlier, later, rfl, ⟨hp, hl⟩ | ⟨hp, hl, he⟩⟩ := h
  · rw [verdict, List.reverse_append, List.reverse_cons, List.append_assoc]
    exact verdictFrom_file none _ _ (fun q hq => hl q (List.mem_reverse.mp hq)) hp
  · rw [verdict, List.reverse_append, List.reverse_cons, List.append_assoc,
      verdictFrom_skip none _ _ fun q hq => hl q (List.mem_reverse.mp hq)]
    rw [List.singleton_append, verdictFrom, hp]
    exact verdictFrom_pending _ _ fun q hq => he q (List.mem_reverse.mp hq)

/-- The last pattern of those that pass a test. -/
private theorem exists_last (test : Pattern → Prop) [DecidablePred test]
    (h : ∃ p ∈ patterns, test p) :
    ∃ earlier p later, patterns = earlier ++ p :: later ∧ test p ∧ ∀ q ∈ later, ¬ test q := by
  cases hf : patterns.reverse.find? (fun p => decide (test p)) with
  | none =>
    obtain ⟨p, hp, ht⟩ := h
    exact absurd ht (by simpa using List.find?_eq_none.mp hf p (List.mem_reverse.mpr hp))
  | some p =>
    obtain ⟨ht, later, earlier, hr, hl⟩ := List.find?_eq_some_iff_append.mp hf
    refine ⟨earlier.reverse, p, later.reverse, ?_, by simpa using ht, fun q hq => ?_⟩
    · rw [← List.reverse_reverse patterns, hr]
      simp
    · simpa using hl q (List.mem_reverse.mp hq)

/-- Where some pattern matches, one has the last word. -/
theorem exists_lastWord (h : ∃ p ∈ patterns, (p.shape.hit? cs).isSome) :
    ∃ p, LastWord patterns cs p := by
  by_cases hfile : ∃ p ∈ patterns, p.shape.hit? cs = some .file
  · obtain ⟨earlier, p, later, hsplit, hp, hl⟩ := exists_last _ hfile
    exact ⟨p, earlier, later, hsplit, .inl ⟨hp, hl⟩⟩
  · obtain ⟨earlier, p, later, rfl, hp, hl⟩ := exists_last _ h
    have hno : ∀ q ∈ earlier ++ p :: later, q.shape.hit? cs ≠ some .file :=
      fun q hq hf => hfile ⟨q, hq, hf⟩
    refine ⟨p, earlier, later, rfl, .inr ⟨?_, fun q hq => by simpa using hl q hq, ?_⟩⟩
    · cases hh : p.shape.hit? cs with
      | none => simp [hh] at hp
      | some hit =>
        cases hit with
        | directory => rfl
        | file => exact absurd hh (hno p (by simp))
    · exact fun q hq => hno q (List.mem_append_left _ hq)

theorem verdict_of_no_hit (h : ∀ q ∈ patterns, q.shape.hit? cs = none) :
    verdict patterns cs = false := by
  have hskip : verdictFrom none cs (patterns.reverse ++ []) = verdictFrom none cs [] :=
    verdictFrom_skip none patterns.reverse [] fun q hq => h q (List.mem_reverse.mp hq)
  rwa [List.append_nil] at hskip

/-- Patterns pick out what one that is not negated has the last word on. -/
theorem verdict_iff :
    verdict patterns cs = true ↔ ∃ p, LastWord patterns cs p ∧ p.negated = false := by
  constructor
  · intro h
    by_cases hhit : ∃ p ∈ patterns, (p.shape.hit? cs).isSome
    · obtain ⟨p, hp⟩ := exists_lastWord hhit
      rw [hp.verdict_eq] at h
      exact ⟨p, hp, by simpa using h⟩
    · rw [verdict_of_no_hit fun p hp => by simpa using fun hs => hhit ⟨p, hp, hs⟩] at h
      exact absurd h Bool.false_ne_true
  · intro h
    obtain ⟨p, hp, hn⟩ := h
    rw [hp.verdict_eq, hn]
    rfl

end CodeAudit.Pattern
