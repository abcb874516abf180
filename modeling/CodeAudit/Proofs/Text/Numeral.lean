import CodeAudit.Text.Digit
import Mathlib.Data.List.TakeWhile
namespace CodeAudit.Text

def blankCodes : List Nat :=
  [0x9, 0xA, 0xB, 0xC, 0xD, 0x1C, 0x1D, 0x1E, 0x1F, 0x20, 0x85, 0xA0, 0x1680, 0x2000, 0x2001,
   0x2002, 0x2003, 0x2004, 0x2005, 0x2006, 0x2007, 0x2008, 0x2009, 0x200A, 0x2028, 0x2029, 0x202F,
   0x205F, 0x3000]

theorem mem_blankCodes {c : Char} (h : isBlank c = true) : c.toNat ∈ blankCodes := by
  simp only [isBlank, Bool.or_eq_true, Bool.and_eq_true, decide_eq_true_eq, beq_iff_eq] at h
  simp only [blankCodes, List.mem_cons]
  omega

/-- White space is finite: what holds of each of its codes holds of all of it. -/
theorem forall_isBlank (P : Char → Prop) (h : ∀ n ∈ blankCodes, P (Char.ofNat n)) {c : Char}
    (hc : isBlank c = true) : P c := by
  have hcode := h c.toNat (mem_blankCodes hc)
  rwa [Char.ofNat_toNat] at hcode

theorem isBlank_of_isDigit {c : Char} (h : isDigit c = true) : isBlank c = false := by
  have hcodes : ∀ n ∈ blankCodes, isDigit (Char.ofNat n) = false := by decide +kernel
  cases hb : isBlank c with
  | false => rfl
  | true =>
    have hnone : isDigit c = false := forall_isBlank (isDigit · = false) hcodes hb
    rw [h] at hnone
    cases hnone

theorem isDigit_of_isDecimal {c : Char} (h : isDecimal c = true) : isDigit c = true := by
  rw [isDigit, h, Bool.true_or]

/-- Nothing but digits, and at least one. -/
def Digits (cs : List Char) : Prop := cs ≠ [] ∧ ∀ c ∈ cs, isDigit c = true

section
variable {cs : List Char}

theorem dropMargins_of_digits (h : ∀ c ∈ cs, isDigit c = true) : dropMargins cs = cs := by
  have hmargin (c : Char) (hc : c ∈ cs) : isMargin c = false := by
    rw [isMargin, isBlank_of_isDigit (h c hc), Bool.false_and]
  have hfront : cs.dropWhile isMargin = cs := by
    apply List.dropWhile_eq_self_iff.mpr
    intro hl
    simp [hmargin _ (List.getElem_mem hl)]
  have hback : cs.reverse.dropWhile isMargin = cs.reverse := by
    apply List.dropWhile_eq_self_iff.mpr
    intro hl
    have hmem : cs.reverse[0] ∈ cs := List.mem_reverse.mp (List.getElem_mem hl)
    rw [hmargin _ hmem]
    exact Bool.false_ne_true
  rw [dropMargins, hfront, hback, List.reverse_reverse]

theorem splitSign_of_digits (h : ∀ c ∈ cs, isDigit c = true) : splitSign cs = (false, cs) := by
  unfold splitSign
  split
  · next rest =>
    have hminus : isDigit '-' = true := h '-' List.mem_cons_self
    cases hminus
  · next rest =>
    have hplus : isDigit '+' = true := h '+' List.mem_cons_self
    cases hplus
  · rfl

theorem ungroup_of_digits (h : ∀ c ∈ cs, isDigit c = true) : ungroup cs = some cs := by
  have hline : isDigit '_' = false := by decide
  fun_induction ungroup cs with
  | case1 => rfl
  | case2 rest => simp [hline] at h
  | case3 c => rfl
  | case4 c rest => simp [hline] at h
  | case5 c d rest _ ih => simp [hline] at h
  | case6 c rest _ _ _ ih =>
    rw [ih fun d hd => h d (List.mem_cons_of_mem _ hd)]
    rfl

theorem takeWhile_of_digits (h : ∀ c ∈ cs, isDigit c = true) :
    (cs.takeWhile fun c => isDecimal c || c = '_') = cs.takeWhile isDecimal ∧
      (cs.dropWhile fun c => isDecimal c || c = '_') = cs.dropWhile isDecimal := by
  induction cs with
  | nil => exact ⟨rfl, rfl⟩
  | cons c rest ih =>
    have hline : c ≠ '_' := by
      rintro rfl
      exact absurd (h '_' List.mem_cons_self) (by decide)
    have hrest := ih fun d hd => h d (List.mem_cons_of_mem _ hd)
    simp only [List.takeWhile_cons, List.dropWhile_cons, hline, decide_false, Bool.or_false]
    split
    · exact ⟨congrArg _ hrest.1, hrest.2⟩
    · exact ⟨rfl, rfl⟩

theorem exists_decimalFrom (h : ∀ c ∈ cs, isDecimal c = true) (n : Nat) :
    ∃ m, decimalFrom n cs = some m := by
  induction cs generalizing n with
  | nil => exact ⟨n, rfl⟩
  | cons c rest ih =>
    obtain ⟨d, hd⟩ := Option.isSome_iff_exists.mp (h c List.mem_cons_self)
    rw [decimalFrom, hd]
    exact ih (fun e he => h e (List.mem_cons_of_mem _ he)) _

theorem exists_decimal? (hne : cs ≠ []) (h : ∀ c ∈ cs, isDecimal c = true) :
    ∃ n, decimal? cs = some n := by
  have hempty : cs.isEmpty = false := by simpa using hne
  obtain ⟨n, hn⟩ := exists_decimalFrom h 0
  refine ⟨n, ?_⟩
  rw [decimal?, hempty]
  exact hn

/-- What digits are read as: the decimal ones in front decide, and any other spoils the number. -/
theorem readInteger_of_digits (h : ∀ c ∈ cs, isDigit c = true) :
    readInteger cs =
      if maxIntegerDigits < (cs.takeWhile isDecimal).length then
        .error (.tooLong (cs.takeWhile isDecimal).length)
      else match cs.dropWhile isDecimal, decimal? (cs.takeWhile isDecimal) with
        | [], some n => .ok n
        | _, _ => .error .malformed := by
  have hfront : ∀ c ∈ cs.takeWhile isDecimal, isDigit c = true := fun c hc =>
    isDigit_of_isDecimal (List.all_eq_true.mp List.all_takeWhile c hc)
  rw [readInteger, dropMargins_of_digits h, splitSign_of_digits h]
  dsimp only
  rw [(takeWhile_of_digits h).1, (takeWhile_of_digits h).2, ungroup_of_digits hfront]
  rfl

theorem readInteger_of_decimals (hne : cs ≠ []) (h : ∀ c ∈ cs, isDecimal c = true) :
    (cs.length ≤ maxIntegerDigits ∧ ∃ n : Nat, readInteger cs = .ok n) ∨
      maxIntegerDigits < cs.length ∧ readInteger cs = .error (.tooLong cs.length) := by
  have hall : cs.takeWhile isDecimal = cs := List.takeWhile_eq_self_iff.mpr h
  have hnone : cs.dropWhile isDecimal = [] := List.dropWhile_eq_nil_iff.mpr h
  obtain ⟨n, hn⟩ := exists_decimal? hne h
  rw [readInteger_of_digits fun c hc => isDigit_of_isDecimal (h c hc), hall, hnone, hn]
  by_cases hlen : maxIntegerDigits < cs.length
  · exact .inr ⟨hlen, if_pos hlen⟩
  · exact .inl ⟨Nat.le_of_not_lt hlen, n, if_neg hlen⟩

theorem readInteger_of_other (h : ∀ c ∈ cs, isDigit c = true)
    (hother : ∃ c ∈ cs, isDecimal c = false) :
    readInteger cs = .error .malformed ∨
      ∃ n, maxIntegerDigits < n ∧ readInteger cs = .error (.tooLong n) := by
  have hrest : cs.dropWhile isDecimal ≠ [] := by
    intro hnone
    obtain ⟨c, hc, hd⟩ := hother
    rw [List.dropWhile_eq_nil_iff.mp hnone c hc] at hd
    cases hd
  rw [readInteger_of_digits h]
  split
  · next hlen => exact .inr ⟨_, hlen, rfl⟩
  · split
    · next hnone _ => exact absurd hnone hrest
    · exact .inl rfl

end

/-- The ASCII digits are ten: what holds of each of them holds of all. -/
theorem forall_isAsciiDigit (P : Char → Prop) (h : ∀ n < 10, P (Char.ofNat (48 + n)))
    {c : Char} (hc : isAsciiDigit c = true) : P c := by
  have hrange : 48 ≤ c.toNat ∧ c.toNat ≤ 57 := by
    rw [isAsciiDigit, Bool.and_eq_true, decide_eq_true_eq, decide_eq_true_eq] at hc
    exact hc
  have hdigit := h (c.toNat - 48) (by omega)
  rwa [Nat.add_sub_cancel' hrange.1, Char.ofNat_toNat] at hdigit

theorem isAsciiDigit_of_isDigit {c : Char} (hc : c.isDigit = true) :
    isAsciiDigit c = true := by
  rw [Char.isDigit, Bool.and_eq_true, decide_eq_true_eq, decide_eq_true_eq] at hc
  rw [isAsciiDigit, Bool.and_eq_true, decide_eq_true_eq, decide_eq_true_eq]
  exact hc

theorem decimalValue_of_asciiDigit {c : Char} (hc : isAsciiDigit c = true) :
    decimalValue? c = some (c.toNat - 48) :=
  forall_isAsciiDigit (fun c => decimalValue? c = some (c.toNat - 48)) (by decide) hc

theorem isDecimal_of_asciiDigit {c : Char} (hc : isAsciiDigit c = true) :
    isDecimal c = true := by
  rw [isDecimal, decimalValue_of_asciiDigit hc]
  rfl

theorem decimalFrom_eq {cs : List Char} (h : ∀ c ∈ cs, isAsciiDigit c = true) (n : Nat) :
    decimalFrom n cs = some (Nat.ofDigitChars 10 cs n) := by
  induction cs generalizing n with
  | nil => rfl
  | cons c cs ih =>
    rw [decimalFrom, decimalValue_of_asciiDigit (h c List.mem_cons_self), Option.bind_some,
      ih fun d hd => h d (List.mem_cons_of_mem c hd)]
    rfl

theorem isAsciiDigit_toDigits {n : Nat} {c : Char} (hc : c ∈ Nat.toDigits 10 n) :
    isAsciiDigit c = true :=
  isAsciiDigit_of_isDigit (Nat.isDigit_of_mem_toDigits (by decide) (by decide) hc)

theorem decimal?_toDigits (n : Nat) : decimal? (Nat.toDigits 10 n) = some n := by
  have hsome : (Nat.toDigits 10 n).isEmpty = false := by simp [Nat.toDigits_ne_nil]
  rw [decimal?, hsome, if_neg Bool.false_ne_true, decimalFrom_eq fun _ => isAsciiDigit_toDigits,
    Nat.ofDigitChars_ten_toDigits]

/-- The digits of a positive number begin with another digit than zero. -/
theorem head_toDigits {n : Nat} (hn : n ≠ 0) : (Nat.toDigits 10 n).head? ≠ some '0' := by
  induction n using Nat.strongRecOn with
  | ind n ih =>
    by_cases hsmall : n < 10
    · have hall : ∀ d < 10, d ≠ 0 → some d.digitChar ≠ some '0' := by decide
      rw [Nat.toDigits_of_lt_base hsmall]
      exact hall n hsmall hn
    · have hlead := ih (n / 10) (by omega) (by omega)
      rw [Nat.toDigits_of_base_le (by decide) (by omega), List.head?_append]
      cases hdigits : (Nat.toDigits 10 (n / 10)).head? with
      | none => exact absurd (List.head?_eq_none_iff.mp hdigits) Nat.toDigits_ne_nil
      | some c =>
        rw [hdigits] at hlead
        exact hlead

end CodeAudit.Text
