import CodeAudit.Json.Writer
import CodeAudit.Proofs.Json.Numeral
namespace CodeAudit.Json

theorem tokensFrom_step {mode next : Mode} {c : Char} {ts : List Token}
    (h : step mode c = some (next, ts)) (cs : List Char) :
    tokensFrom mode (c :: cs) = ts ++ tokensFrom next cs := by
  cases mode with
  | between => rw [tokensFrom, h]
  | atom read => rw [tokensFrom, h]
  | text read high => rw [tokensFrom, h]
  | escape read high => rw [tokensFrom, h]
  | unicode read high digits code => rw [tokensFrom, h]

theorem hexValue_hexDigit (n : Nat) : hexValue? (Text.hexDigit n) = some (n % 16) := by
  have hall : ∀ d < 16, hexValue? (Text.hexDigit d) = some d := by decide
  have hmod : Text.hexDigit n = Text.hexDigit (n % 16) := by
    rw [Text.hexDigit, Text.hexDigit, Nat.mod_mod]
  rw [hmod, hall _ (Nat.mod_lt n (by decide))]

section
variable (read : List Char) (high : Option Nat) (cs : List Char)

/-- Four digits are read as the code unit they spell. -/
theorem tokensFrom_unit {n : Nat} (hn : n < 0x10000) :
    tokensFrom (.text read high) ('\\' :: 'u' :: Text.hex 4 n ++ cs) =
      tokensFrom (afterUnit read high n) cs := by
  have hescape : step (.text read high) '\\' = some (.escape read high, []) := rfl
  have hunicode : step (.escape read high) 'u' = some (.unicode read high 0 0, []) := rfl
  have hdigit (digits code k : Nat) (hd : digits ≠ 3) :
      step (.unicode read high digits code) (Text.hexDigit k) =
        some (.unicode read high (digits + 1) (code * 16 + k % 16), []) := by
    rw [step, hexValue_hexDigit, Option.map_some, if_neg hd]
  have hlast (code k : Nat) : step (.unicode read high 3 code) (Text.hexDigit k) =
      some (afterUnit read high (code * 16 + k % 16), []) := by
    rw [step, hexValue_hexDigit, Option.map_some, if_pos rfl]
  have hcode : (((0 * 16 + n / 16 / 16 / 16 % 16) * 16 + n / 16 / 16 % 16) * 16 +
      n / 16 % 16) * 16 + n % 16 = n := by omega
  have hhex : Text.hex 4 n = [Text.hexDigit (n / 16 / 16 / 16), Text.hexDigit (n / 16 / 16),
      Text.hexDigit (n / 16), Text.hexDigit n] := rfl
  rw [hhex]
  simp only [List.cons_append, List.nil_append]
  rw [tokensFrom_step hescape, tokensFrom_step hunicode, tokensFrom_step (hdigit 0 _ _ (by decide)),
    tokensFrom_step (hdigit 1 _ _ (by decide)), tokensFrom_step (hdigit 2 _ _ (by decide)),
    tokensFrom_step (hlast _ _), hcode]
  rfl

theorem tokensFrom_short {e c : Char} (he : unescaped? e = some c) :
    tokensFrom (.text read none) ('\\' :: e :: cs) = tokensFrom (.text (c :: read) none) cs := by
  have hescape : step (.text read none) '\\' = some (.escape read none, []) := rfl
  have hshort : step (.escape read none) e = some (.text (c :: read) none, []) := by
    have hunit : e ≠ 'u' := by
      rintro rfl
      cases he
    rw [step, if_neg hunit, he]
    rfl
  rw [tokensFrom_step hescape, tokensFrom_step hshort]
  rfl

theorem tokensFrom_plain {c : Char} (hquote : c ≠ '"') (hslash : c ≠ '\\')
    (hprint : 0x20 ≤ c.toNat) :
    tokensFrom (.text read none) (c :: cs) = tokensFrom (.text (c :: read) none) cs := by
  have hstep : step (.text read none) c = some (.text (c :: read) none, []) := by
    rw [step, if_neg hquote, if_neg hslash, if_neg (Nat.not_lt.mpr hprint)]
    rfl
  rw [tokensFrom_step hstep]
  rfl

/-- A code unit that is no half of a pair is a character by itself. -/
theorem afterUnit_char (c : Char) : afterUnit read none c.toNat = .text (c :: read) none := by
  have hvalid : c.toNat < 0xD800 ∨ 0xDFFF < c.toNat ∧ c.toNat < 0x110000 := c.valid
  have hhigh : ¬ (0xD800 ≤ c.toNat && c.toNat < 0xDC00) = true := by
    rw [Bool.and_eq_true, decide_eq_true_eq, decide_eq_true_eq]
    omega
  have hlow : ¬ (0xDC00 ≤ c.toNat && c.toNat < 0xE000) = true := by
    rw [Bool.and_eq_true, decide_eq_true_eq, decide_eq_true_eq]
    omega
  rw [afterUnit, if_neg hhigh, if_neg hlow, Char.ofNat_toNat]
  rfl

/-- Two halves of a pair are read as the character that they were taken from. -/
theorem tokensFrom_pair {c : Char} (hc : 0x10000 ≤ c.toNat) :
    tokensFrom (.text read none)
      ('\\' :: 'u' :: Text.hex 4 (0xD800 + (c.toNat - 0x10000) / 0x400) ++
        '\\' :: 'u' :: Text.hex 4 (0xDC00 + (c.toNat - 0x10000) % 0x400) ++ cs) =
      tokensFrom (.text (c :: read) none) cs := by
  have hvalid : c.toNat < 0xD800 ∨ 0xDFFF < c.toNat ∧ c.toNat < 0x110000 := c.valid
  let high := 0xD800 + (c.toNat - 0x10000) / 0x400
  let low := 0xDC00 + (c.toNat - 0x10000) % 0x400
  have hhigh : afterUnit read none high = .text read (some high) := by
    have hin : (0xD800 ≤ high && high < 0xDC00) = true := by
      rw [Bool.and_eq_true, decide_eq_true_eq, decide_eq_true_eq]
      omega
    rw [afterUnit, if_pos hin]
    rfl
  have hlow : afterUnit read (some high) low = .text (c :: read) none := by
    have hout : ¬ (0xD800 ≤ low && low < 0xDC00) = true := by
      rw [Bool.and_eq_true, decide_eq_true_eq, decide_eq_true_eq]
      omega
    have hin : (0xDC00 ≤ low && low < 0xE000) = true := by
      rw [Bool.and_eq_true, decide_eq_true_eq, decide_eq_true_eq]
      omega
    have hcode : 0x10000 + (high - 0xD800) * 0x400 + (low - 0xDC00) = c.toNat := by omega
    rw [afterUnit, if_neg hout, if_pos hin, hcode, Char.ofNat_toNat]
  rw [List.append_assoc, tokensFrom_unit read none _ (by omega : high < 0x10000), hhigh,
    tokensFrom_unit read (some high) cs (by omega : low < 0x10000), hlow]

/-- However a character is written, it is read back. -/
theorem tokensFrom_escaped (c : Char) :
    tokensFrom (.text read none) (escaped c ++ cs) = tokensFrom (.text (c :: read) none) cs := by
  fun_cases escaped c with
  | case1 hself =>
    rw [Bool.or_eq_true, decide_eq_true_eq, decide_eq_true_eq] at hself
    obtain rfl | rfl := hself
    · exact tokensFrom_short read cs rfl
    · exact tokensFrom_short read cs rfl
  | case2 _ hfeed => exact hfeed ▸ tokensFrom_short read cs rfl
  | case3 _ _ hreturn => exact hreturn ▸ tokensFrom_short read cs rfl
  | case4 _ _ _ htab => exact htab ▸ tokensFrom_short read cs rfl
  | case5 _ _ _ _ hpage => exact hpage ▸ tokensFrom_short read cs rfl
  | case6 _ _ _ _ _ hback => exact hback ▸ tokensFrom_short read cs rfl
  | case7 n hself _ _ _ _ _ hprint =>
    rw [Bool.or_eq_true, decide_eq_true_eq, decide_eq_true_eq, not_or] at hself
    rw [Bool.and_eq_true, decide_eq_true_eq] at hprint
    exact tokensFrom_plain read cs hself.1 hself.2 hprint.1
  | case8 n _ _ _ _ _ _ _ hunit => rw [tokensFrom_unit read none cs hunit, afterUnit_char]
  | case9 n _ _ _ _ _ _ _ hpair => exact tokensFrom_pair read cs (Nat.le_of_not_lt hpair)

end

/-- A written text is one token, whatever follows it. -/
theorem tokens_writtenText (s : String) (rest : List Char) :
    tokensFrom .between (writtenText s ++ rest) =
      .value (.text s) :: tokensFrom .between rest := by
  have hchars (cs read : List Char) :
      tokensFrom (.text read none) (cs.flatMap escaped ++ '"' :: rest) =
        .value (.text (String.ofList (read.reverse ++ cs))) :: tokensFrom .between rest := by
    induction cs generalizing read with
    | nil =>
      have hend : step (.text read none) '"' =
          some (.between, [.value (.text (String.ofList read.reverse))]) := rfl
      rw [List.flatMap_nil, List.nil_append, tokensFrom_step hend, List.append_nil]
      rfl
    | cons c cs ih =>
      rw [List.flatMap_cons, List.append_assoc, tokensFrom_escaped, ih, List.reverse_cons,
        List.append_assoc]
      rfl
  have hbegin : step .between '"' = some (.text [] none, []) := rfl
  have hquoted : writtenText s ++ rest = '"' :: (s.toList.flatMap escaped ++ '"' :: rest) := by
    rw [writtenText, List.cons_append, List.cons_append, List.append_assoc]
    rfl
  rw [hquoted, tokensFrom_step hbegin, List.nil_append, hchars, List.reverse_nil,
    List.nil_append, String.ofList_toList]

/-- The characters that end what is neither text nor punctuation. -/
def ends (c : Char) : Bool := isSpace c || c = '"' || (punctuation? c).isSome

/-- Nothing goes on at the front of a text. -/
def Parted (rest : List Char) : Prop := ∀ c ∈ rest.head?, ends c = true

theorem parted_cons {c : Char} (hc : ends c = true) (cs : List Char) : Parted (c :: cs) := by
  intro d hd
  rwa [← Option.some.inj hd]

theorem tokensFrom_atom_append {read cs rest : List Char} (hcs : ∀ c ∈ cs, ends c = false)
    (hrest : Parted rest) : tokensFrom (.atom read) (cs ++ rest) =
      .ofAtom (read.reverse ++ cs) :: tokensFrom .between rest := by
  induction cs generalizing read with
  | nil =>
    rw [List.nil_append, List.append_nil]
    cases rest with
    | nil => rfl
    | cons c rest =>
      have hend : ends c = true := hrest c rfl
      have hbegin : step .between c = some (begin c) := rfl
      have hstep : step (.atom read) c = some ((begin c).1, .ofAtom read.reverse :: (begin c).2) :=
        if_pos hend
      rw [tokensFrom_step hstep, tokensFrom_step hbegin]
      rfl
  | cons c cs ih =>
    have hgoes : ends c = false := hcs c List.mem_cons_self
    have hstep : step (.atom read) c = some (.atom (c :: read), []) :=
      if_neg (Bool.eq_false_iff.mp hgoes)
    rw [List.cons_append, tokensFrom_step hstep, ih fun d hd => hcs d (List.mem_cons_of_mem c hd),
      List.reverse_cons, List.append_assoc]
    rfl

/-- What is neither text nor punctuation is one token up to where it is parted from the rest. -/
theorem tokens_atom {cs rest : List Char} (hne : cs ≠ []) (hcs : cs.any ends = false)
    (hrest : Parted rest) :
    tokensFrom .between (cs ++ rest) = .ofAtom cs :: tokensFrom .between rest := by
  have hcs : ∀ c ∈ cs, ends c = false := by simpa using hcs
  cases cs with
  | nil => exact absurd rfl hne
  | cons c cs =>
    have hgoes : ends c = false := hcs c List.mem_cons_self
    rw [ends, Bool.or_eq_false_iff, Bool.or_eq_false_iff] at hgoes
    have hbegin : begin c = (.atom [c], []) := by
      rw [begin, hgoes.1.1, if_neg Bool.false_ne_true, if_neg (of_decide_eq_false hgoes.1.2),
        Option.not_isSome_iff_eq_none.mp (Bool.eq_false_iff.mp hgoes.2)]
    have hstep : step .between c = some (.atom [c], []) := congrArg some hbegin
    rw [List.cons_append, tokensFrom_step hstep,
      tokensFrom_atom_append (fun d hd => hcs d (List.mem_cons_of_mem c hd)) hrest]
    rfl

theorem ends_numeral (x : Numeral) : ∀ c ∈ x.chars, ends c = false := by
  have hdigit {c : Char} (hc : Text.isAsciiDigit c = true) : ends c = false :=
    Text.forall_isAsciiDigit (ends · = false) (by decide) hc
  have hsign : ∀ c ∈ x.sign, ends c = false := by
    rw [Numeral.sign]
    split
    · exact List.forall_mem_singleton.mpr rfl
    · simp
  have hpoint : ∀ c ∈ x.point, ends c = false := by
    rw [Numeral.point]
    split
    · simp
    · exact List.forall_mem_cons.mpr ⟨rfl, fun c hc => hdigit (x.fraction_digits c hc)⟩
  have hmark : ∀ c ∈ x.mark, ends c = false := by
    rw [Numeral.mark]
    split
    · simp
    · next down ds hp =>
      refine List.forall_mem_cons.mpr ⟨rfl, List.forall_mem_cons.mpr ⟨?_, fun c hc => ?_⟩⟩
      · cases down with
        | true => rfl
        | false => rfl
      · exact hdigit (x.power_digits _ hp c hc)
  rw [Numeral.chars, Numeral.body]
  intro c hc
  rcases List.mem_append.mp hc with hc | hc
  · exact hsign c hc
  rcases List.mem_append.mp hc with hc | hc
  · exact hdigit (x.whole_digits c hc)
  rcases List.mem_append.mp hc with hc | hc
  · exact hpoint c hc
  · exact hmark c hc

theorem tokens_numeral (x : Numeral) {rest : List Char} (hrest : Parted rest) :
    tokensFrom .between (x.chars ++ rest) = .ofAtom x.chars :: tokensFrom .between rest := by
  have hne : x.chars ≠ [] := by
    obtain ⟨c, cs, hbody, -⟩ := x.body_head
    rw [Numeral.chars, hbody]
    simp
  have hgoes : x.chars.any ends = false := by simpa using ends_numeral x
  exact tokens_atom hne hgoes hrest

/-- An integer is one token, unless it has too many digits. -/
theorem tokens_integerText {n : Int} {rest : List Char}
    (hn : Decimal.digitCount n.natAbs ≤ Text.maxIntegerDigits) (hrest : Parted rest) :
    tokensFrom .between ((integerText n).toList ++ rest) =
      .value (.int n) :: tokensFrom .between rest := by
  rw [← Numeral.ofAtom_integerText hn, ← Numeral.chars_ofInt, tokens_numeral _ hrest]

/-- A double is one token, which is a double again. -/
theorem tokens_floatText (x : Double) : ∃ y, ∀ rest, Parted rest →
    tokensFrom .between ((floatText x).toList ++ rest) =
      .value (.float y) :: tokensFrom .between rest := by
  cases x with
  | nan => exact ⟨.nan, fun rest hrest => tokens_atom (by decide) (by decide) hrest⟩
  | infinite negative =>
    refine ⟨.infinite negative, fun rest hrest => ?_⟩
    cases negative with
    | true => exact tokens_atom (by decide) (by decide) hrest
    | false => exact tokens_atom (by decide) (by decide) hrest
  | finite negative m scale =>
    obtain ⟨x, hx, hkind⟩ := Double.exists_numeral negative m scale
    obtain ⟨y, hy⟩ := x.ofAtom_float hkind
    refine ⟨y, fun rest hrest => ?_⟩
    have htext : (floatText (.finite negative m scale)).toList = x.chars := hx
    rw [htext, tokens_numeral x hrest, hy]

end CodeAudit.Json
