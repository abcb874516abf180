import CodeAudit.Analyzer.Jscpd
import CodeAudit.Proofs.Analyzer.Diagnostic
import CodeAudit.Proofs.Steps
import CodeAudit.Proofs.Text.Numeral
namespace CodeAudit

/-- What the reader of an output relies on without checking it. -/
inductive Demand
  /-- A text of digits writes an integer. -/
  | number (v : Json)
  /-- A run of decimal digits is no longer than integers may be. -/
  | digits (cs : List Char)
  /-- A value can be looked up among words. -/
  | word (v : Json)
  /-- A value has items to go through, or counts as nothing. -/
  | items (v : Json)
  /-- Bytes are UTF-8. -/
  | utf8 (bytes : Text.Bytes)
  /-- No integer of a document is too long to be read. -/
  | document (cs : List Char)

namespace Demand

def Met : Demand → Prop
  | number v => ∀ s, v = .text s → Text.Digits (Text.trim s.toList) →
      (∀ c ∈ Text.trim s.toList, Text.isDecimal c = true) ∧
        (Text.trim s.toList).length ≤ Text.maxIntegerDigits
  | digits cs => cs.length ≤ Text.maxIntegerDigits
  | word v => (∀ xs, v ≠ .list xs) ∧ ∀ fields, v ≠ .record fields
  | items v => v.truthy = true →
      (∃ s, v = .text s) ∨ (∃ xs, v = .list xs) ∨ ∃ fields, v = .record fields
  | utf8 bytes => ∃ cs, Text.decode bytes = .ok cs
  | document cs => ∀ n, Json.read cs ≠ .error (.integerTooLong n)

inductive Raises : Demand → Fault → Prop
  | notNumber {v : Json} (text : String) : Raises (number v) (.notNumber text)
  | longNumber {v : Json} {n : Nat} (h : Text.maxIntegerDigits < n) :
      Raises (number v) (.numberTooLong n)
  | longDigits {cs : List Char} : Raises (digits cs) (.numberTooLong cs.length)
  | unhashable (v : Json) : Raises (word v) (.unhashable v.typeName)
  | notIterable (v : Json) : Raises (items v) (.notIterable v.typeName)
  | undecodable {bytes : Text.Bytes} (cause : Text.Undecodable) :
      Raises (utf8 bytes) (.undecodable cause)
  | longInteger {cs : List Char} (n : Nat) : Raises (document cs) (.numberTooLong n)

theorem Raises.ne_toolOutput {d : Demand} {f : Fault} (h : d.Raises f) (m : String) :
    f ≠ .toolOutput m := by
  cases h <;> exact nofun

/-- The values among which the first positive integer is looked for: as many as it takes. -/
def alternatives : List Json → List Demand
  | [] => []
  | v :: vs =>
    number v :: match Output.positive? v with
      | .ok (some _) => []
      | _ => alternatives vs

@[simp] theorem alternatives_singleton (v : Json) : alternatives [v] = [number v] := by
  rw [alternatives]
  split <;> rfl

end Demand

/-- An answer that comes exactly if some demands are met; a fault tells of one that is not. -/
structure Asks {α : Type} (ds : List Demand) (x : Except Fault α) : Prop where
  met : ∀ a, x = .ok a → ∀ d ∈ ds, d.Met
  raises : ∀ f, x = .error f → ∃ d ∈ ds, ¬ d.Met ∧ d.Raises f

namespace Asks
variable {α β : Type} {ds es : List Demand} {x : Except Fault α}

theorem ok (a : α) : Asks [] (.ok a : Except Fault α) where
  met := by simp
  raises := nofun

theorem of_met {a : α} (h : ∀ d ∈ ds, d.Met) : Asks ds (.ok a : Except Fault α) where
  met _ _ := h
  raises := nofun

theorem of_unmet {d : Demand} {f : Fault} (hd : ¬ d.Met) (hf : d.Raises f) :
    Asks (d :: ds) (.error f : Except Fault α) where
  met := nofun
  raises := by
    intro g hg
    cases hg
    exact ⟨d, List.mem_cons_self, hd, hf⟩

theorem of_same (h : ∀ d, d ∈ ds ↔ d ∈ es) (hx : Asks ds x) : Asks es x where
  met a ha d hd := hx.met a ha d ((h d).mpr hd)
  raises f hf := by
    obtain ⟨d, hd, hunmet⟩ := hx.raises f hf
    exact ⟨d, (h d).mp hd, hunmet⟩

theorem cons {d : Demand} (hd : d.Met) (hx : Asks ds x) : Asks (d :: ds) x where
  met a ha := List.forall_mem_cons.mpr ⟨hd, hx.met a ha⟩
  raises f hf := by
    obtain ⟨e, he, hunmet⟩ := hx.raises f hf
    exact ⟨e, List.mem_cons_of_mem d he, hunmet⟩

theorem bind {f : α → Except Fault β} (hx : Asks ds x) (hf : ∀ a, x = .ok a → Asks es (f a)) :
    Asks (ds ++ es) (x >>= f) where
  met b hb := by
    obtain ⟨a, ha, hfa⟩ := bind_eq_ok.mp hb
    exact List.forall_mem_append.mpr ⟨hx.met a ha, (hf a ha).met b hfa⟩
  raises g hg := by
    rcases bind_eq_error.mp hg with he | ⟨a, ha, hfa⟩
    · obtain ⟨d, hd, hunmet⟩ := hx.raises g he
      exact ⟨d, List.mem_append_left _ hd, hunmet⟩
    · obtain ⟨d, hd, hunmet⟩ := (hf a ha).raises g hfa
      exact ⟨d, List.mem_append_right _ hd, hunmet⟩

theorem bind_ok {f : α → Except Fault β} (hx : Asks ds x) (hf : ∀ a, ∃ b, f a = .ok b) :
    Asks ds (x >>= f) := by
  have h : Asks (ds ++ []) (x >>= f) := hx.bind fun a _ => by
    obtain ⟨b, hb⟩ := hf a
    rw [hb]
    exact ok b
  rwa [List.append_nil] at h

theorem map (hx : Asks ds x) (f : α → β) : Asks ds (x.map f) := by
  cases x with
  | ok a => exact of_met (hx.met a rfl)
  | error g =>
    refine ⟨nofun, fun g' hg' => ?_⟩
    cases hg'
    exact hx.raises g rfl

theorem ite {c : Prop} [Decidable c] {y : Except Fault α} (hx : Asks ds x) (hy : Asks es y) :
    Asks (if c then ds else es) (if c then x else y) := by
  split
  · exact hx
  · exact hy

theorem each {f : α → Except Fault (List β)} {ds : α → List Demand} {xs : List α}
    (h : ∀ x ∈ xs, Asks (ds x) (f x)) : Asks (xs.flatMap ds) (Output.each f xs) := by
  induction xs with
  | nil => exact ok []
  | cons x xs ih =>
    have hx := h x List.mem_cons_self
    have hxs := ih fun y hy => h y (List.mem_cons_of_mem x hy)
    rw [Output.each, List.flatMap_cons]
    cases hfx : f x with
    | error g =>
      refine ⟨nofun, fun g' hg' => ?_⟩
      cases hg'
      obtain ⟨d, hd, hunmet⟩ := hx.raises g hfx
      exact ⟨d, List.mem_append_left _ hd, hunmet⟩
    | ok ys =>
      have hmap := hxs.map (ys ++ ·)
      constructor
      · intro zs hzs
        exact List.forall_mem_append.mpr ⟨hx.met ys hfx, hmap.met zs hzs⟩
      · intro g hg
        obtain ⟨d, hd, hunmet⟩ := hmap.raises g hg
        exact ⟨d, List.mem_append_right _ hd, hunmet⟩

end Asks

namespace Output
open Demand

theorem asks_digits {cs : List Char} (h : Diagnostic.Number cs) :
    Asks [.digits cs] (digits cs) := by
  rcases Text.readInteger_of_decimals h.1 h.2 with ⟨hlen, n, hn⟩ | ⟨hlen, hn⟩
  · rw [digits, hn]
    exact .of_met (List.forall_mem_singleton.mpr hlen)
  · rw [digits, hn]
    exact .of_unmet (Nat.not_le_of_lt hlen) .longDigits

/-- A text of digits is read as an integer exactly if it writes one that is not too long. -/
theorem asks_positive (v : Json) : Asks [.number v] (positive? v) := by
  have hother (h : ∀ s, v ≠ .text s) : (number v).Met := fun s hs => absurd hs (h s)
  cases v with
  | text s =>
    by_cases hdigits : Text.Digits (Text.trim s.toList)
    · have hread : positive? (.text s) = (digits (Text.trim s.toList)).map above := by
        have hall : (Text.trim s.toList).all Text.isDigit = true :=
          List.all_eq_true.mpr hdigits.2
        simp [positive?, hall, hdigits.1]
      rw [hread]
      by_cases hall : ∀ c ∈ Text.trim s.toList, Text.isDecimal c = true
      · rcases Text.readInteger_of_decimals hdigits.1 hall with ⟨hlen, n, hn⟩ | ⟨hlen, hn⟩
        · rw [digits, hn]
          refine .of_met (List.forall_mem_singleton.mpr ?_)
          intro t ht _
          cases ht
          exact ⟨hall, hlen⟩
        · rw [digits, hn]
          refine .of_unmet (fun hmet => ?_) (.longNumber hlen)
          exact Nat.not_le_of_lt hlen (hmet s rfl hdigits).2
      · have hunmet : ¬ (number (.text s)).Met := fun hmet => hall (hmet s rfl hdigits).1
        have hsome : ∃ c ∈ Text.trim s.toList, Text.isDecimal c = false := by simpa using hall
        rcases Text.readInteger_of_other hdigits.2 hsome with hn | ⟨n, hlen, hn⟩
        · rw [digits, hn]
          exact .of_unmet hunmet (.notNumber _)
        · rw [digits, hn]
          exact .of_unmet hunmet (.longNumber hlen)
    · have hread : positive? (.text s) = .ok none := by
        rw [positive?]
        refine if_neg fun hcond => hdigits ?_
        simpa [Text.Digits] using hcond
      rw [hread]
      refine .of_met (List.forall_mem_singleton.mpr ?_)
      intro t ht hd
      cases ht
      exact absurd hd hdigits
  | other e => exact e.elim
  | _ => exact .of_met (List.forall_mem_singleton.mpr (hother nofun))

theorem number?_cons (fields : Fields Empty) (name : String) (names : List String) :
    number? fields (name :: names) = positive? (fields.get name) >>= fun n =>
      if n.isSome then pure n else number? fields names := by
  rw [number?]
  rcases positive? (fields.get name) with f | _ | n <;> rfl

/-- A first value decides if it holds a positive integer, else the rest. -/
theorem asks_or {v : Json} {vs : List Json} {rest : Except Fault (Option Int)}
    (h : Asks (alternatives vs) rest) :
    Asks (alternatives (v :: vs))
      (positive? v >>= fun n => if n.isSome then pure n else rest) := by
  have hv := asks_positive v
  have hmet (n : Option Int) (hn : positive? v = .ok n) : (number v).Met :=
    List.forall_mem_singleton.mp (hv.met n hn)
  rw [alternatives]
  rcases hp : positive? v with f | _ | n
  · obtain ⟨d, hd, hunmet, hraises⟩ := hv.raises f hp
    rw [List.mem_singleton.mp hd] at hunmet hraises
    exact .of_unmet hunmet hraises
  · exact h.cons (hmet none hp)
  · exact .of_met (List.forall_mem_singleton.mpr (hmet (some n) hp))

section
variable {α : Type} {v : Json} {vs : List Json} {rest : Except Fault (Option Int)}
  {next : Option Int → Except Fault α}

/-- As `asks_or`, with what goes on after either. -/
theorem asks_or_bind {es : List Demand} (h : Asks (alternatives vs) rest)
    (hnext : ∀ n, Asks es (next n)) :
    Asks (alternatives (v :: vs) ++ es)
      (positive? v >>= fun n => if n.isSome then pure n >>= next else rest >>= next) := by
  have hbind := (asks_or (v := v) h).bind fun n _ => hnext n
  rcases hp : positive? v with f | _ | n
  all_goals
    rw [hp] at hbind
    exact hbind

theorem asks_or_bind_ok (h : Asks (alternatives vs) rest) (hnext : ∀ n, ∃ a, next n = .ok a) :
    Asks (alternatives (v :: vs))
      (positive? v >>= fun n => if n.isSome then pure n >>= next else rest >>= next) := by
  have hnone (n : Option Int) : Asks [] (next n) := by
    obtain ⟨a, ha⟩ := hnext n
    rw [ha]
    exact .ok a
  have hbind := asks_or_bind (v := v) h hnone
  rwa [List.append_nil] at hbind

end

theorem asks_number (fields : Fields Empty) (names : List String) :
    Asks (alternatives (names.map fields.get)) (number? fields names) := by
  induction names with
  | nil => exact .ok none
  | cons name names ih =>
    rw [number?_cons, List.map_cons]
    exact asks_or ih

theorem asks_line (fields : Fields Empty) (names : List String) :
    Asks (alternatives (names.map fields.get)) (line fields names) :=
  (asks_number fields names).map _

theorem asks_line_singleton (fields : Fields Empty) (name : String) :
    Asks [.number (fields.get name)] (line fields [name]) := by
  have h := asks_line fields [name]
  rwa [List.map_singleton, alternatives_singleton] at h

theorem asks_items (v : Json) : Asks [.items v] (items v) := by
  have hloop (hv : ¬ ((∃ s, v = .text s) ∨ (∃ xs, v = .list xs) ∨ ∃ fields, v = .record fields)) :
      Asks [.items v] (if v.truthy then .error (.notIterable v.typeName) else .ok [] :
        Except Fault (List Json)) := by
    split
    · next htruthy => exact .of_unmet (fun hmet => hv (hmet htruthy)) (.notIterable v)
    · next hfalsy =>
      exact .of_met (List.forall_mem_singleton.mpr fun htruthy => absurd htruthy hfalsy)
  cases v with
  | text s => exact .of_met (List.forall_mem_singleton.mpr fun _ => .inl ⟨s, rfl⟩)
  | list xs => exact .of_met (List.forall_mem_singleton.mpr fun _ => .inr (.inl ⟨xs, rfl⟩))
  | record fields =>
    exact .of_met (List.forall_mem_singleton.mpr fun _ => .inr (.inr ⟨fields, rfl⟩))
  | other e => exact e.elim
  | _ => exact hloop (by simp)

theorem asks_isOneOf (words : List String) (v : Json) : Asks [.word v] (isOneOf words v) := by
  cases v with
  | list xs => exact .of_unmet (fun hmet => hmet.1 xs rfl) (.unhashable _)
  | record fields => exact .of_unmet (fun hmet => hmet.2 fields rfl) (.unhashable _)
  | other e => exact e.elim
  | _ => exact .of_met (List.forall_mem_singleton.mpr ⟨nofun, nofun⟩)

end Output
end CodeAudit
