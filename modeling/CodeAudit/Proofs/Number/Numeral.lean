import CodeAudit.Data.Display
import CodeAudit.Proofs.Text.Numeral
namespace CodeAudit
open Text

/-- A number as it is spelled: a sign, digits of which the first is a zero only if it is alone, more
digits after a point, and a power of ten with a sign of its own. -/
structure Numeral where
  negative : Bool
  whole : List Char
  fraction : List Char
  power : Option (Bool × List Char)
  whole_ne : whole ≠ []
  whole_digits : ∀ c ∈ whole, isAsciiDigit c = true
  whole_head : whole = ['0'] ∨ whole.head? ≠ some '0'
  fraction_digits : ∀ c ∈ fraction, isAsciiDigit c = true
  power_ne : ∀ p ∈ power, p.2 ≠ []
  power_digits : ∀ p ∈ power, ∀ c ∈ p.2, isAsciiDigit c = true

namespace Numeral
variable (x : Numeral)

def sign : List Char := if x.negative then ['-'] else []

def point : List Char := if x.fraction.isEmpty then [] else '.' :: x.fraction

def mark : List Char :=
  match x.power with
  | none => []
  | some (down, ds) => 'e' :: (if down then '-' else '+') :: ds

def body : List Char := x.whole ++ (x.point ++ x.mark)

def chars : List Char := x.sign ++ x.body

def ofInt (n : Int) : Numeral where
  negative := n < 0
  whole := Nat.toDigits 10 n.natAbs
  fraction := []
  power := none
  whole_ne := Nat.toDigits_ne_nil
  whole_digits _ hc := isAsciiDigit_toDigits hc
  whole_head := by
    by_cases hn : n.natAbs = 0
    · left
      rw [hn]
      rfl
    · exact .inr (head_toDigits hn)
  fraction_digits := by simp
  power_ne := by simp
  power_digits := by simp

theorem chars_ofInt (n : Int) : (ofInt n).chars = (integerText n).toList := by
  have hchars : (ofInt n).chars = (if n < 0 then ['-'] else []) ++ Nat.toDigits 10 n.natAbs := by
    simp [chars, body, ofInt, sign, point, mark]
  rw [hchars, integerText]
  split
  · rw [String.toList_append, Nat.toList_repr]
    rfl
  · rw [Nat.toList_repr]
    rfl

variable (negative : Bool) (d : Decimal)

theorem zeros_digits (n : Nat) : ∀ c ∈ List.replicate n '0', isAsciiDigit c = true := by
  intro c hc
  rw [List.eq_of_mem_replicate hc]
  rfl

/-- A whole number with a zero after the point. -/
def wholly (hd : d.digits = 0 → d.exponent ≤ 0) : Numeral where
  negative := negative
  whole := Nat.toDigits 10 d.digits ++ List.replicate d.exponent.toNat '0'
  fraction := ['0']
  power := none
  whole_ne := List.append_ne_nil_of_left_ne_nil Nat.toDigits_ne_nil _
  whole_digits c hc := by
    rcases List.mem_append.mp hc with hc | hc
    · exact isAsciiDigit_toDigits hc
    · exact zeros_digits _ c hc
  whole_head := by
    by_cases hzero : d.digits = 0
    · have hnone : d.exponent.toNat = 0 := by
        have hlow := hd hzero
        omega
      left
      rw [hnone, hzero]
      rfl
    · obtain ⟨c, cs, hds⟩ :=
        List.exists_cons_of_ne_nil (Nat.toDigits_ne_nil (n := d.digits) (b := 10))
      have hhead := head_toDigits hzero
      rw [hds] at hhead ⊢
      exact .inr hhead
  fraction_digits := zeros_digits 1
  power_ne := by simp
  power_digits := by simp

/-- The digits of a number with so many places after the point, and at least one before it. -/
def padded (places : Nat) : List Char :=
  List.replicate (places + 1 - (Nat.toDigits 10 d.digits).length) '0' ++ Nat.toDigits 10 d.digits

theorem padded_digits (places : Nat) : ∀ c ∈ padded d places, isAsciiDigit c = true := by
  intro c hc
  rcases List.mem_append.mp hc with hc | hc
  · exact zeros_digits _ c hc
  · exact isAsciiDigit_toDigits hc

theorem lt_length_padded (places : Nat) : places < (padded d places).length := by
  rw [padded, List.length_append, List.length_replicate]
  omega

/-- A number with places after the point. -/
def pointed (places : Nat) (hplaces : 0 < places) : Numeral where
  negative := negative
  whole := (padded d places).take ((padded d places).length - places)
  fraction := (padded d places).drop ((padded d places).length - places)
  power := none
  whole_ne := by
    have hlong := lt_length_padded d places
    rw [← List.length_pos_iff, List.length_take]
    omega
  whole_digits c hc := padded_digits d places c (List.mem_of_mem_take hc)
  whole_head := by
    by_cases hshort : (Nat.toDigits 10 d.digits).length ≤ places
    · have hone : (padded d places).length - places = 1 := by
        rw [padded, List.length_append, List.length_replicate]
        omega
      have hfront : places + 1 - (Nat.toDigits 10 d.digits).length =
          places - (Nat.toDigits 10 d.digits).length + 1 := by omega
      left
      rw [hone, padded, hfront]
      rfl
    · have hsame : padded d places = Nat.toDigits 10 d.digits := by
        have hnone : places + 1 - (Nat.toDigits 10 d.digits).length = 0 := by omega
        rw [padded, hnone]
        rfl
      have hdigits : d.digits ≠ 0 := by
        intro hzero
        rw [hzero] at hshort
        exact hshort hplaces
      right
      rw [hsame, List.head?_take, if_neg (by omega)]
      exact head_toDigits hdigits
  fraction_digits c hc := padded_digits d places c (List.mem_of_mem_drop hc)
  power_ne := by simp
  power_digits := by simp

/-- The digits of a power of ten, which are two at the least. -/
def powerDigits (n : Nat) : List Char :=
  let size := Nat.toDigits 10 n
  if size.length < 2 then '0' :: size else size

theorem powerDigits_ne (n : Nat) : powerDigits n ≠ [] := by
  rw [powerDigits]
  split
  · exact List.cons_ne_nil _ _
  · exact Nat.toDigits_ne_nil

theorem powerDigits_digits (n : Nat) : ∀ c ∈ powerDigits n, isAsciiDigit c = true := by
  intro c hc
  rw [powerDigits] at hc
  split at hc
  · rcases List.mem_cons.mp hc with rfl | hc
    · rfl
    · exact isAsciiDigit_toDigits hc
  · exact isAsciiDigit_toDigits hc

/-- One digit before the point, and a power of ten. -/
def scientific : Numeral where
  negative := negative
  whole := (Nat.toDigits 10 d.digits).take 1
  fraction := (Nat.toDigits 10 d.digits).drop 1
  power :=
    let power : Int := d.exponent + ((Nat.toDigits 10 d.digits).length - 1 : Nat)
    some (power < 0, powerDigits power.natAbs)
  whole_ne := by simp [Nat.toDigits_ne_nil]
  whole_digits c hc := isAsciiDigit_toDigits (List.mem_of_mem_take hc)
  whole_head := by
    obtain ⟨c, cs, hds⟩ :=
      List.exists_cons_of_ne_nil (Nat.toDigits_ne_nil (n := d.digits) (b := 10))
    rw [hds]
    by_cases hzero : c = '0'
    · exact .inl (congrArg (fun c => [c]) hzero)
    · exact .inr fun hhead => hzero (Option.some.inj hhead)
  fraction_digits c hc := isAsciiDigit_toDigits (List.mem_of_mem_drop hc)
  power_ne p hp := by
    obtain rfl := Option.some.inj hp
    exact powerDigits_ne _
  power_digits p hp := by
    obtain rfl := Option.some.inj hp
    exact powerDigits_digits _

theorem body_wholly (hd : d.digits = 0 → d.exponent ≤ 0) (hup : 0 ≤ d.exponent) :
    (wholly negative d hd).body = (d.positional ".0").toList := by
  rw [Decimal.positional, if_pos hup, String.toList_append, String.toList_ofList]
  simp [body, wholly, point, mark]

theorem fraction_pointed (places : Nat) (hplaces : 0 < places) :
    (pointed negative d places hplaces).fraction ≠ [] := by
  have hlong := lt_length_padded d places
  rw [pointed, ← List.length_pos_iff, List.length_drop]
  omega

theorem body_pointed (hdown : d.exponent < 0) :
    (pointed negative d (-d.exponent).toNat (by omega)).body = (d.positional ".0").toList := by
  have hplaces : 0 < (-d.exponent).toNat := by omega
  have hsome : ¬ (pointed negative d (-d.exponent).toNat hplaces).fraction.isEmpty = true := by
    simpa using fraction_pointed negative d _ hplaces
  rw [Decimal.positional, if_neg (by omega), String.toList_ofList, body, point, if_neg hsome]
  simp only [pointed, mark, padded, List.append_nil]

theorem body_scientific : (scientific negative d).body = d.scientific.toList := by
  have hmark : (scientific negative d).mark = ['e', if d.exponent +
      ((Nat.toDigits 10 d.digits).length - 1 : Nat) < 0 then '-' else '+'] ++
        powerDigits (d.exponent + ((Nat.toDigits 10 d.digits).length - 1 : Nat)).natAbs := by
    simp only [mark, scientific, decide_eq_true_eq]
    rfl
  have hpoint : (scientific negative d).point = if (Nat.toDigits 10 d.digits).length ≤ 1 then []
      else '.' :: (Nat.toDigits 10 d.digits).drop 1 := by
    simp only [point, scientific, List.isEmpty_iff, List.drop_eq_nil_iff]
  rw [Decimal.scientific, String.toList_ofList, body, hmark, hpoint]
  simp only [List.append_assoc]
  rfl

end Numeral

namespace Decimal
variable {m scale : Nat} {d : Decimal}

theorem strip_digits (h : d.digits = 0 → d.exponent ≤ 0) :
    (strip d).digits = 0 → (strip d).exponent ≤ 0 := by
  have hgo (n : Nat) (d : Decimal) (h : d.digits = 0 → d.exponent ≤ 0) :
      (strip.go n d).digits = 0 → (strip.go n d).exponent ≤ 0 := by
    induction n generalizing d with
    | zero => exact h
    | succ n ih =>
      rw [strip.go]
      split
      · next htail =>
        apply ih
        intro hzero
        have hquotient : d.digits / 10 = 0 := hzero
        omega
      · exact h
  exact hgo _ d h

theorem interval_pos (hm : m ≠ 0) : 0 < (interval m scale).1 := by
  have hpow (n : Nat) : 0 < Nat.pow 2 n := Nat.pow_pos (by decide)
  rw [interval]
  split
  · exact Nat.mul_pos (by omega) (hpow _)
  · exact Nat.mul_pos (by omega) (hpow _)

/-- Zero does not read back as a positive double. -/
theorem digits_of_readsBack (hm : m ≠ 0) (h : readsBack m scale d = true) : d.digits ≠ 0 := by
  intro hzero
  have hlow : 0 < (interval m scale).1 := interval_pos hm
  have hnone (dd : Nat) (hdd : 0 < dd) : ¬ (interval m scale).1 * dd ≤ 0 :=
    Nat.not_le.mpr (Nat.mul_pos hlow hdd)
  have hscale : ∃ dd, 0 < dd ∧ (if 0 ≤ d.exponent then
      (d.digits * Nat.pow 10 d.exponent.toNat, 1)
    else (d.digits, Nat.pow 10 (-d.exponent).toNat)) = (0, dd) := by
    split
    · exact ⟨1, by decide, by rw [hzero, Nat.zero_mul]⟩
    · exact ⟨Nat.pow 10 _, Nat.pow_pos (by decide), by rw [hzero]⟩
  obtain ⟨dd, hdd, hpair⟩ := hscale
  rw [readsBack, hpair] at h
  dsimp only at h
  rw [Nat.mul_zero, Nat.zero_mul] at h
  split at h
  · rw [Bool.and_eq_true, decide_eq_true_eq] at h
    exact hnone dd hdd h.1
  · rw [Bool.and_eq_true, decide_eq_true_eq] at h
    exact hnone dd hdd (Nat.le_of_lt h.1)

theorem candidate_readsBack {exponent : Int} (h : candidate m scale exponent = some d) :
    readsBack m scale d = true := by
  rw [candidate] at h
  generalize onGrid (m * Nat.pow 2 scale) Double.one exponent = grid at h
  obtain ⟨num, den⟩ := grid
  exact List.find?_some h

theorem shortest_digits (hm : m ≠ 0) :
    (shortest m scale).digits = 0 → (shortest m scale).exponent ≤ 0 := by
  rw [shortest]
  apply strip_digits
  generalize hfound : (List.range 17).findSome? _ = found
  cases found with
  | none => exact fun _ => Int.le_refl 0
  | some d =>
    obtain ⟨n, -, hcandidate⟩ := List.exists_of_findSome?_eq_some hfound
    have hback := candidate_readsBack hcandidate
    exact fun hzero => absurd hzero (digits_of_readsBack hm hback)

end Decimal

/-- A finite double is spelled as a numeral with a fraction or a power of ten. -/
theorem Double.exists_numeral (negative : Bool) (m scale : Nat) :
    ∃ x : Numeral, (finite negative m scale).text.toList = x.chars ∧
      (x.fraction ≠ [] ∨ x.power ≠ none) := by
  have hsign (s : String) : ((if negative then "-" else "") ++ s).toList =
      (if negative then ['-'] else []) ++ s.toList := by
    rw [String.toList_append]
    cases negative with
    | true => rfl
    | false => rfl
  rw [text, spelled]
  by_cases hm : m = 0
  · rw [if_pos hm]
    refine ⟨Numeral.wholly negative ⟨0, 0⟩ (fun _ => Int.le_refl 0), ?_,
      .inl (List.cons_ne_nil _ _)⟩
    rw [String.append_assoc, hsign]
    rfl
  · let d := Decimal.shortest m scale
    have hd : d.digits = 0 → d.exponent ≤ 0 := Decimal.shortest_digits hm
    rw [if_neg hm]
    dsimp only
    split
    · by_cases hup : 0 ≤ d.exponent
      · refine ⟨Numeral.wholly negative d hd, ?_, .inl (List.cons_ne_nil _ _)⟩
        rw [hsign, Numeral.chars, Numeral.body_wholly negative d hd hup]
        rfl
      · have hplaces : 0 < (-d.exponent).toNat := by omega
        refine ⟨Numeral.pointed negative d _ hplaces, ?_,
          .inl (Numeral.fraction_pointed negative d _ hplaces)⟩
        rw [hsign, Numeral.chars, Numeral.body_pointed negative d (Int.not_le.mp hup)]
        rfl
    · refine ⟨Numeral.scientific negative d, ?_, .inr (Option.some_ne_none _)⟩
      rw [hsign, Numeral.chars, Numeral.body_scientific]
      rfl

end CodeAudit
