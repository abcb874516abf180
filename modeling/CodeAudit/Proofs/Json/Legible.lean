import CodeAudit.Proofs.Json.Reread
namespace CodeAudit

theorem Text.decimalValue_lt {c : Char} {d : Nat} (h : decimalValue? c = some d) : d < 10 := by
  obtain ⟨base, -, hbase⟩ := List.exists_of_findSome?_eq_some h
  split at hbase
  · next hrange =>
    rw [Bool.and_eq_true, decide_eq_true_eq, decide_eq_true_eq] at hrange
    cases hbase
    omega
  · cases hbase

theorem Text.decimalFrom_lt {cs : List Char} {a n : Nat} (h : decimalFrom a cs = some n) :
    n < (a + 1) * Nat.pow 10 cs.length := by
  induction cs generalizing a with
  | nil =>
    cases h
    exact Nat.lt_of_lt_of_eq (Nat.lt_succ_self n) (Nat.mul_one (n + 1)).symm
  | cons c cs ih =>
    obtain ⟨d, hd, hn⟩ := Option.bind_eq_some_iff.mp h
    have hdigit := decimalValue_lt hd
    have hpow : Nat.pow 10 (c :: cs).length = 10 * Nat.pow 10 cs.length :=
      Nat.mul_comm (Nat.pow 10 cs.length) 10
    calc n < (10 * a + d + 1) * Nat.pow 10 cs.length := ih hn
      _ ≤ (a + 1) * 10 * Nat.pow 10 cs.length := Nat.mul_le_mul_right _ (by omega)
      _ = (a + 1) * Nat.pow 10 (c :: cs).length := by rw [hpow, Nat.mul_assoc]

namespace Json

/-- A number written with few enough digits is legible. -/
theorem legible_of_decimal? {cs : List Char} {n : Nat} (h : Text.decimal? cs = some n)
    (hlen : cs.length ≤ Text.maxIntegerDigits) (negative : Bool) :
    Legible (.int (if negative then -n else n)) := by
  have hsize : (if negative then -(n : Int) else n).natAbs = n := by
    cases negative with
    | true => rw [if_pos rfl, Int.natAbs_neg, Int.natAbs_natCast]
    | false => rw [if_neg Bool.false_ne_true, Int.natAbs_natCast]
  rw [Text.decimal?] at h
  split at h
  · cases h
  · next hsome =>
    have hpos : 0 < cs.length := by
      rw [List.length_pos_iff]
      exact fun hnil => hsome (List.isEmpty_iff.mpr hnil)
    have hlt : n < Nat.pow 10 cs.length := by
      have hfrom := Text.decimalFrom_lt h
      rwa [Nat.zero_add, Nat.one_mul] at hfrom
    rw [Legible, hsize]
    exact ((Nat.length_toDigits_le_iff (by decide) hpos).mpr hlt).trans hlen

theorem legible_value {l : Literal} {negative : Bool} {v : Json}
    (h : l.value negative = .ok v) : Legible v := by
  rw [Literal.value] at h
  split at h
  · split at h
    · next n hn =>
      split at h
      · cases h
      · next hshort =>
        cases h
        exact legible_of_decimal? hn (Nat.not_lt.mp hshort) negative
    · cases h
  · split at h
    · cases h
      exact legible_float _
    · cases h

/-- A token that is a value is one that a text can hold. -/
def LegibleToken (t : Token) : Prop := ∀ v, t = .value v → Legible v

theorem legible_ofNumber (cs : List Char) : LegibleToken (Token.ofNumber cs) := by
  intro v hv
  unfold Token.ofNumber at hv
  split at hv
  split at hv
  · cases hv
  · split at hv
    · cases hv
    · next hvalue =>
      split at hv
      · cases hv
        exact legible_value hvalue
      · cases hv

theorem legible_ofAtom (cs : List Char) : LegibleToken (Token.ofAtom cs) := by
  have hconst {v : Json} (h : Legible v) : LegibleToken (.value v) := by
    intro w hw
    cases hw
    exact h
  have hnull : Legible .null := by
    rw [Legible]
    trivial
  fun_cases Token.ofAtom cs with
  | case1 => exact hconst hnull
  | case2 => exact hconst (legible_bool _)
  | case3 => exact hconst (legible_bool _)
  | case4 => exact hconst (legible_float _)
  | case5 => exact hconst (legible_float _)
  | case6 => exact hconst (legible_float _)
  | case7 => exact legible_ofNumber cs

theorem legible_begin (c : Char) : ∀ t ∈ (begin c).2, LegibleToken t := by
  have hmark {t : Token} (h : punctuation? c = some t) : LegibleToken t := by
    rintro v rfl
    unfold punctuation? at h
    split at h <;> cases h
  rw [begin]
  split
  · simp
  · split
    · simp
    · split
      · next t h => exact List.forall_mem_singleton.mpr (hmark h)
      · simp

theorem legible_step {mode next : Mode} {c : Char} {ts : List Token}
    (h : step mode c = some (next, ts)) : ∀ t ∈ ts, LegibleToken t := by
  cases mode with
  | between =>
    obtain ⟨rfl, rfl⟩ := Prod.mk.inj (Option.some.inj h)
    exact legible_begin c
  | atom read =>
    rw [step] at h
    split at h
    · obtain ⟨rfl, rfl⟩ := Prod.mk.inj (Option.some.inj h)
      exact List.forall_mem_cons.mpr ⟨legible_ofAtom _, legible_begin c⟩
    · cases h
      simp
  | text read high =>
    rw [step] at h
    split at h
    · cases h
      refine List.forall_mem_singleton.mpr fun v hv => ?_
      cases hv
      exact legible_text _
    split at h
    · cases h
      simp
    split at h
    · cases h
    · cases h
      simp
  | escape read high =>
    rw [step] at h
    split at h
    · cases h
      simp
    · obtain ⟨d, -, hd⟩ := Option.map_eq_some_iff.mp h
      cases hd
      simp
  | unicode read high digits code =>
    obtain ⟨d, -, hd⟩ := Option.map_eq_some_iff.mp h
    split at hd
    · cases hd
      simp
    · cases hd
      simp

theorem legible_tokensFrom (mode : Mode) (cs : List Char) :
    ∀ t ∈ tokensFrom mode cs, LegibleToken t := by
  have hfault (cause : Unreadable) : LegibleToken (.fault cause) := by
    intro v hv
    cases hv
  induction cs generalizing mode with
  | nil =>
    cases mode with
    | between => simp [tokensFrom]
    | atom read => simpa [tokensFrom] using legible_ofAtom _
    | _ => simpa [tokensFrom] using hfault _
  | cons c cs ih =>
    cases hstep : step mode c with
    | none =>
      have hone : tokensFrom mode (c :: cs) = [.fault .malformed] := by
        cases mode <;> rw [tokensFrom, hstep]
      rw [hone]
      exact List.forall_mem_singleton.mpr (hfault _)
    | some p =>
      obtain ⟨next, ts⟩ := p
      rw [tokensFrom_step hstep]
      exact List.forall_mem_append.mpr ⟨legible_step hstep, ih next⟩

/-- What stands in a container part way through is what a text can hold. -/
def LegibleFrame : Frame → Prop
  | .list done => Legible (.list done)
  | .record done _ => Legible (.record done)

def LegiblePlace : Place → Prop
  | .name done => Legible (.record done)
  | .colon done _ => Legible (.record done)
  | .after v => Legible v
  | _ => True

def LegibleState (s : State) : Prop := LegiblePlace s.1 ∧ ∀ f ∈ s.2, LegibleFrame f

theorem legible_put {fields : Fields Empty} (n : String) {v : Json}
    (hfields : Legible (.record fields)) (hv : Legible v) :
    Legible (.record (Fields.put n v fields)) := by
  rw [legible_record] at hfields ⊢
  exact ⟨Fields.nodup_put fields n v hfields.1, Fields.forall_put hfields.2 hv⟩

/-- What a token leads to is legible if the token and what was there before are. -/
theorem legible_advance {s next : State} {t : Token} (h : advance s t = .ok next)
    (hs : LegibleState s) (ht : LegibleToken t) : LegibleState next := by
  have hlist : Legible (.list []) := by simp
  have hrecord : Legible (.record []) := by simp [Fields.names]
  have hitems {v : Json} {done : List Json} (hv : Legible v) (hdone : Legible (.list done)) :
      Legible (.list (v :: done)) := by
    rw [legible_list] at hdone ⊢
    exact List.forall_mem_cons.mpr ⟨hv, hdone⟩
  revert h
  fun_cases advance s t with
  | case1 k v =>
    rintro ⟨⟩
    exact ⟨ht v rfl, hs.2⟩
  | case2 k | case3 k =>
    rintro ⟨⟩
    exact ⟨trivial, hs.2⟩
  | case4 k cause | case9 k cause => exact nofun
  | case5 k =>
    rintro ⟨⟩
    exact ⟨hlist, hs.2⟩
  | case6 k v =>
    rintro ⟨⟩
    exact ⟨ht v rfl, List.forall_mem_cons.mpr ⟨hlist, hs.2⟩⟩
  | case7 k | case8 k =>
    rintro ⟨⟩
    exact ⟨trivial, List.forall_mem_cons.mpr ⟨hlist, hs.2⟩⟩
  | case10 k | case11 k n =>
    rintro ⟨⟩
    exact ⟨hrecord, hs.2⟩
  | case12 done k n =>
    rintro ⟨⟩
    exact hs
  | case13 done n k =>
    rintro ⟨⟩
    exact ⟨trivial, List.forall_mem_cons.mpr hs⟩
  | case14 v done k =>
    rintro ⟨⟩
    obtain ⟨hdone, hk⟩ := List.forall_mem_cons.mp hs.2
    exact ⟨trivial, List.forall_mem_cons.mpr ⟨hitems hs.1 hdone, hk⟩⟩
  | case15 v done k =>
    rintro ⟨⟩
    obtain ⟨hdone, hk⟩ := List.forall_mem_cons.mp hs.2
    refine ⟨?_, hk⟩
    have hall := legible_list.mp (hitems hs.1 hdone)
    exact legible_list.mpr fun x hx => hall x (List.mem_reverse.mp hx)
  | case16 v done n k | case17 v done n k =>
    rintro ⟨⟩
    obtain ⟨hdone, hk⟩ := List.forall_mem_cons.mp hs.2
    exact ⟨legible_put n hdone hs.1, hk⟩
  | case18 => exact nofun

theorem legible_run {s next : State} {ts : List Token} (h : run s ts = .ok next)
    (hs : LegibleState s) (hts : ∀ t ∈ ts, LegibleToken t) : LegibleState next := by
  induction ts generalizing s with
  | nil =>
    cases h
    exact hs
  | cons t ts ih =>
    obtain ⟨ht, hts⟩ := List.forall_mem_cons.mp hts
    rw [run] at h
    split at h
    · next hstep => exact ih h (legible_advance hstep hs ht) hts
    · cases h

/-- What is read from a text is what a text can hold. -/
theorem legible_of_read {cs : List Char} {v : Json} (h : read cs = .ok v) : Legible v := by
  rw [read] at h
  split at h
  · next hrun =>
    have hstart : LegibleState (.value, []) := ⟨trivial, by simp⟩
    have hend := legible_run hrun hstart (legible_tokensFrom .between cs)
    cases h
    exact hend.1
  · cases h
  · cases h

end Json
end CodeAudit
