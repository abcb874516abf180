import CodeAudit.Json.Token
import CodeAudit.Proofs.Number.Numeral
namespace CodeAudit
open Text

namespace Json

theorem digits_append {ds rest : List Char} (hne : ds ≠ [])
    (hds : ∀ c ∈ ds, isAsciiDigit c = true) (hrest : ∀ c ∈ rest.head?, isAsciiDigit c = false) :
    digits? (ds ++ rest) = some (ds, rest) := by
  have hstop : rest.takeWhile isAsciiDigit = [] ∧ rest.dropWhile isAsciiDigit = rest := by
    cases rest with
    | nil => exact ⟨rfl, rfl⟩
    | cons c cs =>
      have hc := hrest c rfl
      exact ⟨List.takeWhile_cons_of_neg (by simp [hc]), List.dropWhile_cons_of_neg (by simp [hc])⟩
  have hsome : ds.isEmpty = false := by simpa using hne
  rw [digits?, List.takeWhile_append_of_pos hds, List.dropWhile_append_of_pos hds, hstop.1,
    hstop.2, List.append_nil, hsome]
  rfl

end Json
namespace Numeral
open Json
variable (x : Numeral)

def exponent : Option Int :=
  x.power.map fun (down, ds) =>
    let n : Int := Nat.ofDigitChars 10 ds 0
    if down then -n else n

def literal : Literal := ⟨x.whole, x.fraction, x.exponent⟩

theorem mark_head : ∀ c ∈ x.mark.head?, c = 'e' := by
  intro c hc
  rw [mark] at hc
  split at hc
  · cases hc
  · exact (Option.some.inj hc).symm

theorem point_head : ∀ c ∈ (x.point ++ x.mark).head?, c = '.' ∨ c = 'e' := by
  intro c hc
  rw [point] at hc
  split at hc
  · exact .inr (x.mark_head c hc)
  · exact .inl (Option.some.inj hc).symm

theorem whole?_body : Literal.whole? digits? x.body = some (x.whole, x.point ++ x.mark) := by
  have hstop : ∀ c ∈ (x.point ++ x.mark).head?, isAsciiDigit c = false := by
    intro c hc
    rcases x.point_head c hc with rfl | rfl
    · rfl
    · rfl
  rw [body]
  rcases x.whole_head with hzero | hlead
  · rw [hzero]
    rfl
  · have hdigits := digits_append x.whole_ne x.whole_digits hstop
    unfold Literal.whole?
    split
    · next cs hcs =>
      cases hw : x.whole with
      | nil => exact absurd hw x.whole_ne
      | cons c ws =>
        rw [hw, List.cons_append] at hcs
        rw [hw, (List.cons.inj hcs).1] at hlead
        exact absurd rfl hlead
    · exact hdigits

theorem fraction?_append : (Literal.fraction? digits? (x.point ++ x.mark)).getD
    ([], x.point ++ x.mark) = (x.fraction, x.mark) := by
  have hstop : ∀ c ∈ x.mark.head?, isAsciiDigit c = false := by
    intro c hc
    rw [x.mark_head c hc]
    rfl
  rw [point]
  cases hf : x.fraction with
  | nil =>
    have hnone : Literal.fraction? digits? x.mark = none := by
      unfold Literal.fraction?
      split
      · next cs hcs =>
        have hpoint := x.mark_head '.' (by rw [hcs]; rfl)
        cases hpoint
      · rfl
    rw [List.isEmpty_nil, if_pos rfl, List.nil_append, hnone]
    rfl
  | cons c cs =>
    have hne : c :: cs ≠ [] := List.cons_ne_nil c cs
    have hdigits := digits_append hne (hf ▸ x.fraction_digits) hstop
    rw [List.isEmpty_cons, if_neg Bool.false_ne_true, List.cons_append, Literal.fraction?, hdigits]
    rfl

theorem exponent?_mark : Literal.exponent? digits? x.mark = x.exponent.map (·, []) := by
  rw [mark, exponent]
  cases hp : x.power with
  | none => rfl
  | some p =>
    obtain ⟨down, ds⟩ := p
    have hne := x.power_ne _ hp
    have hds := x.power_digits _ hp
    have hsome : ds.isEmpty = false := by simpa using hne
    have hdigits : digits? ds = some (ds, []) := by
      have happend : digits? (ds ++ []) = some (ds, []) := digits_append hne hds (by simp)
      rwa [List.append_nil] at happend
    have hsign : splitSign ((if down then '-' else '+') :: ds) = (down, ds) := by
      cases down with
      | true => rfl
      | false => rfl
    have hvalue : decimal? ds = some (Nat.ofDigitChars 10 ds 0) := by
      rw [decimal?, hsome, if_neg Bool.false_ne_true, decimalFrom_eq hds]
    have hmark : (decide ('e' = 'e') || decide ('e' = 'E')) = true := rfl
    dsimp only
    rw [Literal.exponent?, if_pos hmark, hsign]
    dsimp only
    rw [hdigits, Option.bind_some]
    dsimp only
    rw [hvalue]
    rfl

/-- A numeral is read as a number to its end. -/
theorem longest_body : Literal.longest? digits? x.body = some (x.literal, []) := by
  rw [Literal.longest?, whole?_body, Option.map_some]
  dsimp only
  rw [fraction?_append]
  dsimp only
  rw [exponent?_mark, literal]
  cases he : x.exponent with
  | none =>
    have hmark : x.mark = [] := by
      rw [mark, Option.map_eq_none_iff.mp he]
    rw [hmark]
    rfl
  | some e => rfl

theorem body_head : ∃ c cs, x.body = c :: cs ∧ isAsciiDigit c = true ∧ c ≠ '-' := by
  rw [body]
  cases hw : x.whole with
  | nil => exact absurd hw x.whole_ne
  | cons c cs =>
    have hdigit : isAsciiDigit c = true := x.whole_digits c (hw ▸ List.mem_cons_self)
    exact ⟨c, _, rfl, hdigit, forall_isAsciiDigit (· ≠ '-') (by decide) hdigit⟩

/-- Without its sign a numeral begins with a digit. -/
theorem dropWhile_chars : x.chars.dropWhile (· = '-') = x.body := by
  obtain ⟨c, cs, hw, -, hminus⟩ := x.body_head
  rw [chars, sign, hw]
  split
  · simp [hminus]
  · simp [hminus]

theorem ofNumber_chars : Token.ofNumber x.chars =
    match x.literal.value x.negative with
    | .error cause => .fault cause
    | .ok v => .value v := by
  obtain ⟨c, cs, hw, -, hminus⟩ := x.body_head
  unfold Token.ofNumber
  split
  next negative body hsplit =>
    have hsigned : negative = x.negative ∧ body = x.body := by
      rw [chars, sign] at hsplit
      cases hneg : x.negative with
      | true =>
        rw [hneg, if_pos rfl] at hsplit
        exact ⟨(Prod.mk.inj hsplit).1.symm, (Prod.mk.inj hsplit).2.symm⟩
      | false =>
        rw [hneg, if_neg Bool.false_ne_true, List.nil_append] at hsplit
        split at hsplit
        · next heq =>
          rw [hw] at heq
          exact absurd (List.cons.inj heq).1 hminus
        · exact ⟨(Prod.mk.inj hsplit).1.symm, (Prod.mk.inj hsplit).2.symm⟩
    rw [hsigned.1, hsigned.2, longest_body]
    dsimp only
    cases x.literal.value x.negative with
    | error cause => rfl
    | ok v => rfl

/-- A numeral is read as its value. -/
theorem ofAtom_chars : Token.ofAtom x.chars =
    match x.literal.value x.negative with
    | .error cause => .fault cause
    | .ok v => .value v := by
  obtain ⟨c, cs, hw, hdigit, -⟩ := x.body_head
  have hword {word : List Char}
      (hnone : (word.dropWhile (· = '-')).head?.any isAsciiDigit = false) : x.chars ≠ word := by
    rintro rfl
    rw [dropWhile_chars, hw, List.head?_cons, Option.any_some, hdigit] at hnone
    cases hnone
  rw [Token.ofAtom, if_neg (hword rfl), if_neg (hword rfl), if_neg (hword rfl),
    if_neg (hword rfl), if_neg (hword rfl), if_neg (hword rfl), ofNumber_chars]

/-- With a fraction or a power of ten a numeral is read as a double. -/
theorem ofAtom_float (hx : x.fraction ≠ [] ∨ x.power ≠ none) :
    ∃ y, Token.ofAtom x.chars = .value (.float y) := by
  have hdigits : ∀ c ∈ x.whole ++ x.fraction, isDecimal c = true := by
    intro c hc
    apply isDecimal_of_asciiDigit
    rcases List.mem_append.mp hc with hc | hc
    · exact x.whole_digits c hc
    · exact x.fraction_digits c hc
  obtain ⟨n, hn⟩ := exists_decimal? (List.append_ne_nil_of_left_ne_nil x.whole_ne _) hdigits
  have hkind : ¬ (x.fraction.isEmpty && x.exponent.isNone) = true := by
    simpa [exponent, Option.isNone_iff_eq_none, imp_iff_not_or] using hx
  refine ⟨Double.ofDecimal x.negative n (x.exponent.getD 0 - x.fraction.length), ?_⟩
  rw [ofAtom_chars, Literal.value, literal, if_neg hkind, Double.Parts.toDouble]
  dsimp only
  rw [hn]
  rfl

/-- An integer is read back unless it has too many digits. -/
theorem ofAtom_integerText {n : Int}
    (hn : Decimal.digitCount n.natAbs ≤ maxIntegerDigits) :
    Token.ofAtom (integerText n).toList = .value (.int n) := by
  have hvalue : (ofInt n).literal.value (ofInt n).negative =
      (.ok (.int n) : Except Unreadable Json) := by
    have hwhole : (ofInt n).literal.whole = Nat.toDigits 10 n.natAbs := rfl
    have hkind : ((ofInt n).literal.fraction.isEmpty && (ofInt n).literal.exponent.isNone) = true :=
      rfl
    have hsigned : (if (ofInt n).negative then -(n.natAbs : Int) else n.natAbs) = n := by
      by_cases hneg : n < 0
      · have htrue : (ofInt n).negative = true := decide_eq_true hneg
        rw [htrue, if_pos rfl]
        omega
      · have hfalse : (ofInt n).negative = false := decide_eq_false hneg
        rw [hfalse, if_neg Bool.false_ne_true]
        omega
    have hshort : ¬ maxIntegerDigits < (Nat.toDigits 10 n.natAbs).length := Nat.not_lt.mpr hn
    rw [Literal.value, if_pos hkind, hwhole, decimal?_toDigits]
    dsimp only
    rw [if_neg hshort, hsigned]
  rw [← chars_ofInt, ofAtom_chars, hvalue]

end Numeral
end CodeAudit
