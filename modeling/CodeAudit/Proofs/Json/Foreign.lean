import CodeAudit.Json.Token
import CodeAudit.Proofs.Text.Numeral
namespace CodeAudit.Json
open Text

/-- The characters that a value without quotes is spelled with, apart from digits. -/
def letters : List Char := "nulltruefalseNaNInfinity+-.E".toList

/-- No value without quotes is spelled with such a character. -/
def Foreign (c : Char) : Prop := isAsciiDigit c = false ∧ c ∉ letters

instance (c : Char) : Decidable (Foreign c) :=
  inferInstanceAs (Decidable (isAsciiDigit c = false ∧ c ∉ letters))

theorem Foreign.ne {c d : Char} (hc : Foreign c) (hd : ¬ Foreign d) : c ≠ d := by
  rintro rfl
  exact hd hc

theorem foreign_of_isBlank {c : Char} (h : isBlank c = true) : Foreign c :=
  forall_isBlank Foreign (by decide) h

/-- The token of a number without its sign. -/
def Token.ofBody (negative : Bool) (body : List Char) : Token :=
  match Literal.longest? digits? body with
  | none => fault .malformed
  | some (l, rest) =>
    match l.value negative with
    | .error cause => fault cause
    | .ok v => if rest.isEmpty then value v else fault .malformed

theorem ofNumber_plain {c : Char} (hc : c ≠ '-') (cs : List Char) :
    Token.ofNumber (c :: cs) = .ofBody false (c :: cs) := by
  unfold Token.ofNumber
  split
  next negative body hsplit =>
    split at hsplit
    · next heq => exact absurd (List.cons.inj heq).1 hc
    · cases hsplit
      rfl

/-- What is read of a text stays the same when more is behind it. -/
def further {α : Type} (more : List Char) (p : α × List Char) : α × List Char :=
  (p.1, p.2 ++ more)

section
variable {c : Char} (hc : Foreign c) (cs ds : List Char)
include hc

theorem digits?_foreign : digits? (cs ++ c :: ds) = (digits? cs).map (further (c :: ds)) := by
  have hsplit : (cs ++ c :: ds).takeWhile isAsciiDigit = cs.takeWhile isAsciiDigit ∧
      (cs ++ c :: ds).dropWhile isAsciiDigit = cs.dropWhile isAsciiDigit ++ c :: ds := by
    induction cs with
    | nil => simp [hc.1]
    | cons d cs ih =>
      cases hd : isAsciiDigit d with
      | true => simpa [hd] using ih
      | false => simp [hd]
  rw [digits?, digits?, hsplit.1, hsplit.2]
  cases (cs.takeWhile isAsciiDigit).isEmpty with
  | true => rfl
  | false => rfl

theorem whole?_foreign : Literal.whole? digits? (cs ++ c :: ds) =
    (Literal.whole? digits? cs).map (further (c :: ds)) := by
  have hplain {d : Char} (hd : d ≠ '0') (cs : List Char) :
      Literal.whole? digits? (d :: cs) = digits? (d :: cs) := by
    unfold Literal.whole?
    split
    · next heq => exact absurd (List.cons.inj heq).1 hd
    · rfl
  cases cs with
  | nil =>
    rw [List.nil_append, hplain (hc.ne (by decide))]
    exact digits?_foreign hc [] ds
  | cons d cs =>
    by_cases hd : d = '0'
    · rw [hd]
      rfl
    · rw [List.cons_append, hplain hd, hplain hd]
      exact digits?_foreign hc (d :: cs) ds

theorem fraction?_foreign : Literal.fraction? digits? (cs ++ c :: ds) =
    (Literal.fraction? digits? cs).map (further (c :: ds)) := by
  have hplain {d : Char} (hd : d ≠ '.') (cs : List Char) :
      Literal.fraction? digits? (d :: cs) = none := by
    unfold Literal.fraction?
    split
    · next heq => exact absurd (List.cons.inj heq).1 hd
    · rfl
  cases cs with
  | nil =>
    rw [List.nil_append, hplain (hc.ne (by decide))]
    rfl
  | cons d cs =>
    by_cases hd : d = '.'
    · rw [hd]
      exact digits?_foreign hc cs ds
    · rw [List.cons_append, hplain hd, hplain hd]
      rfl

theorem splitSign_foreign : splitSign (cs ++ c :: ds) = further (c :: ds) (splitSign cs) := by
  have hplain {d : Char} (hd : d ≠ '-') (hd' : d ≠ '+') (cs : List Char) :
      splitSign (d :: cs) = (false, d :: cs) := by
    unfold splitSign
    split
    · next heq => exact absurd (List.cons.inj heq).1 hd
    · next heq => exact absurd (List.cons.inj heq).1 hd'
    · rfl
  cases cs with
  | nil =>
    exact hplain (hc.ne (by decide)) (hc.ne (by decide)) ds
  | cons d cs =>
    by_cases hd : d = '-'
    · rw [hd]
      rfl
    · by_cases hd' : d = '+'
      · rw [hd']
        rfl
      · rw [List.cons_append, hplain hd hd', hplain hd hd']
        rfl

theorem exponent?_foreign : Literal.exponent? digits? (cs ++ c :: ds) =
    (Literal.exponent? digits? cs).map (further (c :: ds)) := by
  cases cs with
  | nil =>
    have hmark : ¬ (c = 'e' || c = 'E') = true := by
      rw [Bool.or_eq_true, decide_eq_true_eq, decide_eq_true_eq, not_or]
      exact ⟨hc.ne (by decide), hc.ne (by decide)⟩
    rw [List.nil_append, Literal.exponent?, if_neg hmark]
    rfl
  | cons d cs =>
    rw [List.cons_append, Literal.exponent?, Literal.exponent?, splitSign_foreign hc]
    split
    · dsimp only [further]
      rw [digits?_foreign hc]
      cases digits? (splitSign cs).2 with
      | none => rfl
      | some p => cases hp : decimal? p.1 <;> simp [further, hp]
    · rfl

theorem longest?_foreign : Literal.longest? digits? (cs ++ c :: ds) =
    (Literal.longest? digits? cs).map (further (c :: ds)) := by
  rw [Literal.longest?, Literal.longest?, whole?_foreign hc]
  cases Literal.whole? digits? cs with
  | none => rfl
  | some p =>
    obtain ⟨whole, rest⟩ := p
    simp only [Option.map_some, further]
    rw [fraction?_foreign hc]
    have hfraction : ((Literal.fraction? digits? rest).map (further (c :: ds))).getD
        ([], rest ++ c :: ds) =
        further (c :: ds) ((Literal.fraction? digits? rest).getD ([], rest)) := by
      cases Literal.fraction? digits? rest with
      | none => rfl
      | some q => rfl
    rw [hfraction]
    dsimp only [further]
    rw [exponent?_foreign hc]
    cases Literal.exponent? digits? ((Literal.fraction? digits? rest).getD ([], rest)).2 with
    | none => rfl
    | some q => rfl

theorem ofBody_foreign (negative : Bool) :
    Token.ofBody negative (cs ++ c :: ds) = .fault .malformed ∨
      ∃ cause, Token.ofBody negative cs = .fault cause ∧
        Token.ofBody negative (cs ++ c :: ds) = .fault cause := by
  rw [Token.ofBody, Token.ofBody, longest?_foreign hc]
  cases Literal.longest? digits? cs with
  | none => exact .inl rfl
  | some p =>
    obtain ⟨l, rest⟩ := p
    dsimp only [Option.map_some, further]
    cases l.value (μ := Empty) negative with
    | error cause => exact .inr ⟨cause, rfl, rfl⟩
    | ok v =>
      refine .inl (if_neg ?_)
      simp

/-- A number with a foreign character behind it is a fault: its own, or that of what follows. -/
theorem ofNumber_foreign : Token.ofNumber (cs ++ c :: ds) = .fault .malformed ∨
    ∃ cause, Token.ofNumber cs = .fault cause ∧ Token.ofNumber (cs ++ c :: ds) = .fault cause := by
  cases cs with
  | nil =>
    rw [List.nil_append, ofNumber_plain (hc.ne (by decide))]
    exact ofBody_foreign hc [] ds false
  | cons d cs =>
    by_cases hd : d = '-'
    · rw [hd]
      exact ofBody_foreign hc cs ds true
    · rw [List.cons_append, ofNumber_plain hd, ofNumber_plain hd]
      exact ofBody_foreign hc (d :: cs) ds false

theorem ofAtom_foreign : Token.ofAtom (cs ++ c :: ds) = .fault .malformed ∨
    ∃ cause, Token.ofAtom cs = .fault cause ∧ Token.ofAtom (cs ++ c :: ds) = .fault cause := by
  have hword {word : List Char} (hw : word ⊆ letters) : cs ++ c :: ds ≠ word := by
    rintro rfl
    exact hc.2 (hw (by simp))
  have hnumber : Token.ofAtom (cs ++ c :: ds) = Token.ofNumber (cs ++ c :: ds) := by
    rw [Token.ofAtom, if_neg (hword (by decide)), if_neg (hword (by decide)),
      if_neg (hword (by decide)), if_neg (hword (by decide)), if_neg (hword (by decide)),
      if_neg (hword (by decide))]
  have hcs : Token.ofAtom cs = Token.ofNumber cs ∨ Token.ofNumber cs = .fault .malformed := by
    rw [Token.ofAtom]
    split_ifs with h h h h h h
    case neg => exact .inl rfl
    all_goals exact .inr (h ▸ rfl)
  rw [hnumber]
  rcases ofNumber_foreign hc cs ds with hbad | ⟨cause, hcause, hsame⟩
  · exact .inl hbad
  · rcases hcs with hcs | hcs
    · exact .inr ⟨cause, hcs.trans hcause, hsame⟩
    · rw [hcs] at hcause
      exact .inl (hsame.trans hcause.symm)

end
end CodeAudit.Json
