import CodeAudit.Json.Reader
import CodeAudit.Proofs.Text.Numeral
namespace CodeAudit.Json
open Text

/-- The characters that a value without quotes can begin with, apart from digits. -/
def initials : List Char := ['n', 't', 'f', 'N', 'I', '-', '0']

/-- No value is spelled with white space at its front. -/
theorem ofAtom_of_isBlank {c : Char} (h : isBlank c = true) (cs : List Char) :
    Token.ofAtom (c :: cs) = .fault .malformed := by
  have hinitial : c ∉ initials := forall_isBlank (· ∉ initials) (by decide) h
  have hdigit : isAsciiDigit c = false := forall_isBlank (isAsciiDigit · = false) (by decide) h
  have hword {word : List Char} (hw : word.head?.any initials.contains = true) :
      c :: cs ≠ word := by
    rintro rfl
    exact hinitial (List.contains_iff_mem.mp hw)
  have hwhole : Literal.whole? digits? (c :: cs) = none := by
    unfold Literal.whole?
    split
    · next heq => exact absurd heq (hword rfl)
    · simp [digits?, hdigit]
  have hnumber : Token.ofNumber (c :: cs) = .fault .malformed := by
    unfold Token.ofNumber
    split
    next negative body hsplit =>
      have hbody : body = c :: cs := by
        split at hsplit
        · next heq => exact absurd heq (hword rfl)
        · exact (Prod.mk.inj hsplit).2.symm
      rw [hbody, Literal.longest?, hwhole]
      rfl
  rw [Token.ofAtom, if_neg (hword rfl), if_neg (hword rfl), if_neg (hword rfl),
    if_neg (hword rfl), if_neg (hword rfl), if_neg (hword rfl), hnumber]

/-- Whatever follows, an atom that has begun becomes the next token. -/
theorem tokensFrom_atom (read cs : List Char) :
    ∃ more ts, tokensFrom (.atom read) cs = .ofAtom (read.reverse ++ more) :: ts := by
  induction cs generalizing read with
  | nil => exact ⟨[], [], by rw [tokensFrom, List.append_nil]⟩
  | cons c cs ih =>
    rw [tokensFrom, step]
    by_cases hends : (isSpace c || c = '"' || (punctuation? c).isSome) = true
    · rw [if_pos hends]
      exact ⟨[], (begin c).2 ++ tokensFrom (begin c).1 cs, by rw [List.append_nil]; rfl⟩
    · obtain ⟨more, ts, hmore⟩ := ih (c :: read)
      rw [if_neg hends]
      exact ⟨c :: more, ts, by simpa using hmore⟩

theorem begin_of_isBlank {c : Char} (h : isBlank c = true) :
    begin c = (.between, []) ∨ begin c = (.atom [c], []) := by
  have hcodes : ∀ n ∈ blankCodes, Char.ofNat n ≠ '"' ∧ (punctuation? (Char.ofNat n)).isNone := by
    decide
  obtain ⟨hquote, hnone⟩ :=
    forall_isBlank (fun c => c ≠ '"' ∧ (punctuation? c).isNone) hcodes h
  rw [begin, if_neg hquote, Option.isNone_iff_eq_none.mp hnone]
  split
  · exact .inl rfl
  · exact .inr rfl

/-- White space is no document. -/
theorem read_of_isBlank {cs : List Char} (h : cs.all isBlank = true) :
    read cs = .error .malformed := by
  have htokens : tokens cs = [] ∨ ∃ ts, tokens cs = .fault .malformed :: ts := by
    rw [tokens]
    induction cs with
    | nil => exact .inl rfl
    | cons c cs ih =>
      have hall := List.all_cons.symm.trans h
      rw [Bool.and_eq_true] at hall
      rw [tokensFrom, step]
      rcases begin_of_isBlank hall.1 with hbegin | hbegin
      · rw [hbegin]
        exact ih hall.2
      · obtain ⟨more, ts, hmore⟩ := tokensFrom_atom [c] cs
        refine .inr ⟨ts, ?_⟩
        rw [hbegin]
        dsimp only
        rw [hmore]
        exact congrArg (· :: ts) (ofAtom_of_isBlank hall.1 more)
  rcases htokens with hnone | ⟨ts, hfault⟩
  · rw [read, hnone]
    rfl
  · rw [read, hfault]
    rfl

end CodeAudit.Json
