import CodeAudit.Proofs.Text.Blank
import CodeAudit.Proofs.Text.Numeral
import CodeAudit.Text.Case
namespace CodeAudit.Text

theorem mem_blankCodes_of_ofNat {n : Nat} (h : isBlank (Char.ofNat n) = true) :
    n ∈ blankCodes := by
  have hcode := mem_blankCodes h
  by_cases hvalid : n.isValidChar
  · have hchar : Char.ofNat n = Char.ofNatAux n hvalid := dif_pos hvalid
    rw [hchar] at hcode
    exact hcode
  · have hchar : Char.ofNat n = '\x00' := dif_neg hvalid
    rw [hchar] at hcode
    exact absurd hcode (by decide)

/-- The table moves no letter to white space. -/
theorem isBlank_of_shifted {n m : Nat} (h : shifted n lowerShifts = some m) :
    isBlank (Char.ofNat m) = false := by
  have hruns : ∀ e ∈ lowerShifts, ∀ code ∈ blankCodes,
      (code : Int) < e.1 + e.2.2.2 ∨ e.2.1 + e.2.2.2 < code := by decide +kernel
  have hpositive : ∀ code ∈ blankCodes, 0 < code := by decide
  obtain ⟨⟨low, high, step, distance⟩, hmem, hshift⟩ := List.exists_of_findSome?_eq_some h
  rw [Option.ite_none_right_eq_some, Bool.and_eq_true, Bool.and_eq_true, decide_eq_true_eq,
    decide_eq_true_eq] at hshift
  obtain ⟨⟨⟨hlow, hhigh⟩, -⟩, hm⟩ := hshift
  cases hb : isBlank (Char.ofNat m) with
  | false => rfl
  | true =>
    have hcode := mem_blankCodes_of_ofNat hb
    have hout := hruns _ hmem m hcode
    have hm0 := hpositive m hcode
    have hm : (n + distance).toNat = m := Option.some.inj hm
    dsimp only at hout
    omega

theorem lowerChar_all_blank {c : Char} (h : (lowerChar c).all isBlank = true) :
    isBlank c = true := by
  have hascii : ∀ n < 0x80, isBlank (Char.ofNat n).toLower = true →
      isBlank (Char.ofNat n) = true := by decide +kernel
  have hexpansions : ∀ e ∈ lowerExpansions, (e.2.map Char.ofNat).all isBlank = false := by
    decide +kernel
  unfold lowerChar at h
  split at h
  · next hlow =>
    have hcode := hascii c.toNat hlow
    rw [Char.ofNat_toNat] at hcode
    exact hcode (by simpa using h)
  · unfold mapped at h
    split at h
    · next codes hcodes =>
      obtain ⟨before, after, htable, -⟩ := List.lookup_eq_some_iff.mp hcodes
      have hmem := hexpansions (c.toNat, codes) (htable ▸ by simp)
      rw [h] at hmem
      cases hmem
    · cases hshift : shifted c.toNat lowerShifts with
      | none => simpa [hshift] using h
      | some m => simp [hshift, isBlank_of_shifted hshift] at h

theorem lowerAfter_all_blank {earlier cs : List Char}
    (h : (lowerAfter earlier cs).all isBlank = true) : cs.all isBlank = true := by
  induction cs generalizing earlier with
  | nil => rfl
  | cons c rest ih =>
    rw [lowerAfter, List.all_append, Bool.and_eq_true] at h
    obtain ⟨hc, hrest⟩ := h
    rw [List.all_cons, ih hrest, Bool.and_true]
    split at hc
    · split at hc <;> exact absurd hc (by decide)
    · exact lowerChar_all_blank hc

/-- A text with something in it has something in it in small letters. -/
theorem blank_lower {s : String} (h : blank s = false) : blank (lower s) = false := by
  cases hb : blank (lower s) with
  | false => rfl
  | true =>
    rw [blank, lower, String.toList_ofList] at hb
    rw [blank, lowerAfter_all_blank hb] at h
    cases h

/-- Only basic capitals have another small form under `Char.toLower`: what is alike for them and
their small forms is alike for all characters and theirs. -/
theorem congr_toLower {α : Type} (f : Char → α)
    (h : ∀ n < 26, f (Char.ofNat (65 + n)).toLower = f (Char.ofNat (65 + n))) (c : Char) :
    f c.toLower = f c := by
  by_cases hc : 65 ≤ c.toNat ∧ c.toNat ≤ 90
  · obtain ⟨n, hn⟩ := Nat.exists_eq_add_of_le hc.1
    have hcode := h n (by omega)
    rwa [← hn, Char.ofNat_toNat] at hcode
  · have hletter : ¬ (c.val ≥ 'A'.val ∧ c.val ≤ 'Z'.val) := fun h =>
      hc ⟨UInt32.le_iff_toNat_le.mp h.1, UInt32.le_iff_toNat_le.mp h.2⟩
    have hown : c.toLower = c := dif_neg hletter
    rw [hown]

/-- Basic capitals and their small forms are alike in all that a text's small letters depend on. -/
theorem toLower_alike : ∀ n < 26,
    lowerChar (Char.ofNat (65 + n)).toLower = lowerChar (Char.ofNat (65 + n)) ∧
      isCased (Char.ofNat (65 + n)).toLower = isCased (Char.ofNat (65 + n)) ∧
      isCaseIgnorable (Char.ofNat (65 + n)).toLower = isCaseIgnorable (Char.ofNat (65 + n)) ∧
      ((Char.ofNat (65 + n)).toLower = 'Σ' ↔ Char.ofNat (65 + n) = 'Σ') := by
  decide +kernel

theorem lowerChar_toLower (c : Char) : lowerChar c.toLower = lowerChar c :=
  congr_toLower lowerChar (fun n hn => (toLower_alike n hn).1) c

theorem isCased_toLower (c : Char) : isCased c.toLower = isCased c :=
  congr_toLower isCased (fun n hn => (toLower_alike n hn).2.1) c

theorem isCaseIgnorable_toLower (c : Char) : isCaseIgnorable c.toLower = isCaseIgnorable c :=
  congr_toLower isCaseIgnorable (fun n hn => (toLower_alike n hn).2.2.1) c

theorem toLower_eq_sigma (c : Char) : c.toLower = 'Σ' ↔ c = 'Σ' :=
  (congr_toLower (· = 'Σ') (fun n hn => propext (toLower_alike n hn).2.2.2) c).to_iff

theorem nextIsCased_toLower (cs : List Char) :
    nextIsCased (cs.map Char.toLower) = nextIsCased cs := by
  have hskip : isCaseIgnorable ∘ Char.toLower = isCaseIgnorable := funext isCaseIgnorable_toLower
  have hcased : isCased ∘ Char.toLower = isCased := funext isCased_toLower
  rw [nextIsCased, nextIsCased, List.dropWhile_map, hskip, List.head?_map, Option.map_map, hcased]

theorem lowerAfter_toLower (earlier cs : List Char) :
    lowerAfter (earlier.map Char.toLower) (cs.map Char.toLower) = lowerAfter earlier cs := by
  induction cs generalizing earlier with
  | nil => rfl
  | cons c rest ih =>
    have hrest := ih (c :: earlier)
    rw [List.map_cons] at hrest
    rw [List.map_cons, lowerAfter, lowerAfter, hrest, lowerChar_toLower, nextIsCased_toLower,
      nextIsCased_toLower]
    simp only [toLower_eq_sigma]

/-- Two texts that are the same but for the case of basic letters. -/
def Recased (s t : String) : Prop := s.toList.map Char.toLower = t.toList.map Char.toLower

instance (s t : String) : Decidable (Recased s t) :=
  inferInstanceAs (Decidable (s.toList.map Char.toLower = t.toList.map Char.toLower))

theorem Recased.lower_eq {s t : String} (h : Recased s t) : lower s = lower t := by
  have hs := lowerAfter_toLower [] s.toList
  have ht := lowerAfter_toLower [] t.toList
  rw [lower, lower, ← hs, ← ht, h]

end CodeAudit.Text
