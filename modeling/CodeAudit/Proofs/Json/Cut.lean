import CodeAudit.Proofs.Json.Blank
import CodeAudit.Proofs.Json.Foreign
import CodeAudit.Proofs.Json.Spelled
import CodeAudit.Proofs.Text.Lines
namespace CodeAudit.Json
open Text

theorem run_append (s : State) (ts us : List Token) : run s (ts ++ us) =
    match run s ts with
    | .ok s => run s us
    | .error cause => .error cause := by
  induction ts generalizing s with
  | nil => rfl
  | cons t ts ih =>
    rw [List.cons_append, run, run]
    cases advance s t with
    | error cause => rfl
    | ok s => exact ih s

/-- What cannot be read is never passed over. -/
theorem advance_fault (s : State) (cause : Unreadable) :
    advance s (.fault cause) = .error cause ∨ advance s (.fault cause) = .error .malformed := by
  obtain ⟨place, k⟩ := s
  cases place with
  | value => exact .inl rfl
  | firstItem => exact .inl rfl
  | name done => exact .inr rfl
  | firstName => exact .inr rfl
  | colon done name => exact .inr rfl
  | after v =>
    cases k with
    | nil => exact .inr rfl
    | cons frame k =>
      cases frame with
      | list done => exact .inr rfl
      | record done name => exact .inr rfl

theorem run_malformed (s : State) (ts : List Token) :
    run s (.fault .malformed :: ts) = .error .malformed := by
  rw [run, (advance_fault s .malformed).elim id id]

/-- There is no fault among tokens. -/
def Sound (ts : List Token) : Prop := ∀ cause, .fault cause ∉ ts

theorem sound_of_run {s s' : State} {ts : List Token} (h : run s ts = .ok s') : Sound ts := by
  induction ts generalizing s with
  | nil => simp [Sound]
  | cons t ts ih =>
    rw [run] at h
    cases hadvance : advance s t with
    | error cause =>
      rw [hadvance] at h
      cases h
    | ok next =>
      rw [hadvance] at h
      intro cause hmem
      rcases List.mem_cons.mp hmem with rfl | hmem
      · have hfault := advance_fault s cause
        simp [hadvance] at hfault
      · exact ih h cause hmem

theorem read_eq_ok {cs : List Char} {v : Json} :
    read cs = .ok v ↔ run (.value, []) (tokens cs) = .ok (.after v, []) := by
  rw [read]
  constructor
  · intro h
    split at h
    · next hrun =>
      cases h
      exact hrun
    · cases h
    · cases h
  · intro h
    rw [h]

/-- A text is read as far as its tokens are run. -/
theorem read_congr {cs ds : List Char}
    (h : run (.value, []) (tokens cs) = run (.value, []) (tokens ds) ∨
      run (.value, []) (tokens cs) = .error .malformed) :
    read cs = read ds ∨ read cs = .error .malformed := by
  rcases h with h | h
  · rw [read, read, h]
    exact .inl rfl
  · rw [read, h]
    exact .inr rfl

theorem tokensFrom_stuck {mode : Mode} {c : Char} (h : step mode c = none) (cs : List Char) :
    tokensFrom mode (c :: cs) = [.fault .malformed] := by
  cases mode with
  | between => rw [tokensFrom, h]
  | atom read => rw [tokensFrom, h]
  | text read high => rw [tokensFrom, h]
  | escape read high => rw [tokensFrom, h]
  | unicode read high digits code => rw [tokensFrom, h]

theorem not_sound_stuck {mode : Mode} {c : Char} (h : step mode c = none) (cs : List Char) :
    ¬ Sound (tokensFrom mode (c :: cs)) := by
  rw [tokensFrom_stuck h]
  exact fun hsound => hsound .malformed List.mem_cons_self

theorem not_sound_foreign {c : Char} (hc : Foreign c) (read cs : List Char) :
    ¬ Sound (tokensFrom (.atom (c :: read)) cs) := by
  obtain ⟨more, ts, hmore⟩ := tokensFrom_atom (c :: read) cs
  rw [hmore, List.reverse_cons, List.append_assoc]
  intro hsound
  rcases ofAtom_foreign hc read.reverse more with hbad | ⟨cause, -, hbad⟩
  · exact hsound .malformed (List.mem_cons.mpr (.inl hbad.symm))
  · exact hsound cause (List.mem_cons.mpr (.inl hbad.symm))

/-- Going on from a mode, characters come to tokens and another mode, or to a fault. -/
theorem tokensFrom_append (mode : Mode) (cs : List Char) :
    (∃ ts next, ∀ rest, tokensFrom mode (cs ++ rest) = ts ++ tokensFrom next rest) ∨
      ∃ ts, ∀ rest, tokensFrom mode (cs ++ rest) = ts ++ [.fault .malformed] := by
  induction cs generalizing mode with
  | nil => exact .inl ⟨[], mode, fun rest => rfl⟩
  | cons c cs ih =>
    cases hstep : step mode c with
    | none =>
      exact .inr ⟨[], fun rest => tokensFrom_stuck hstep (cs ++ rest)⟩
    | some p =>
      obtain ⟨next, ts⟩ := p
      rcases ih next with ⟨us, last, hlast⟩ | ⟨us, hfault⟩
      · refine .inl ⟨ts ++ us, last, fun rest => ?_⟩
        rw [List.cons_append, tokensFrom_step hstep, hlast, List.append_assoc]
      · refine .inr ⟨ts ++ us, fun rest => ?_⟩
        rw [List.cons_append, tokensFrom_step hstep, hfault, List.append_assoc]

/-- In a text a character is as it stands, or cannot stand there. -/
theorem step_text {c : Char} (hquote : c ≠ '"') (hslash : c ≠ '\\') (read : List Char)
    (high : Option Nat) : step (.text read high) c = none ∨
      step (.text read high) c = some (.text (c :: settle read high) none, []) := by
  rw [step, if_neg hquote, if_neg hslash]
  split
  · exact .inl rfl
  · exact .inr rfl

section
variable {c : Char} (hc : isBlank c = true)
include hc

theorem quote_of_isBlank : c ≠ '"' := forall_isBlank (· ≠ '"') (by decide) hc

theorem step_between_of_isBlank : step .between c = some (.between, []) ∧ isSpace c = true ∨
    step .between c = some (.atom [c], []) ∧ isSpace c = false := by
  have hmark : punctuation? c = none := forall_isBlank (punctuation? · = none) (by decide) hc
  rw [step, begin, if_neg (quote_of_isBlank hc), hmark]
  cases isSpace c with
  | true => exact .inl ⟨rfl, rfl⟩
  | false => exact .inr ⟨rfl, rfl⟩

theorem step_atom_of_isBlank (read : List Char) :
    step (.atom read) c = some (.between, [.ofAtom read.reverse]) ∧ isSpace c = true ∨
      step (.atom read) c = some (.atom (c :: read), []) ∧ isSpace c = false := by
  have hmark : punctuation? c = none := forall_isBlank (punctuation? · = none) (by decide) hc
  rw [step, begin, decide_eq_false (quote_of_isBlank hc), hmark]
  cases isSpace c with
  | true => exact .inl ⟨rfl, rfl⟩
  | false => exact .inr ⟨rfl, rfl⟩

theorem step_text_of_isBlank (read : List Char) (high : Option Nat) :
    step (.text read high) c = none ∨
      step (.text read high) c = some (.text (c :: settle read high) none, []) :=
  step_text (quote_of_isBlank hc) (forall_isBlank (· ≠ '\\') (by decide) hc) read high

/-- No escape goes on with white space. -/
theorem step_escape_of_isBlank (read : List Char) (high : Option Nat) :
    step (.escape read high) c = none ∧
      ∀ digits code, step (.unicode read high digits code) c = none := by
  have hescape : c ≠ 'u' ∧ unescaped? c = none ∧ hexValue? c = none :=
    forall_isBlank (fun c => c ≠ 'u' ∧ unescaped? c = none ∧ hexValue? c = none) (by decide)
      hc
  constructor
  · rw [step, if_neg hescape.1, hescape.2.1]
    rfl
  · intro digits code
    rw [step, hescape.2.2]
    rfl

/-- White space before a document is passed over, or the document is not read. -/
theorem read_cons_of_isBlank (cs : List Char) : read (c :: cs) = read cs ∧ isSpace c = true ∨
    read (c :: cs) = .error .malformed ∧ isSpace c = false := by
  rcases step_between_of_isBlank hc with ⟨hstep, hspace⟩ | ⟨hstep, hspace⟩
  · refine .inl ⟨?_, hspace⟩
    rw [read, tokens, tokensFrom_step hstep]
    rfl
  · obtain ⟨more, ts, hmore⟩ := tokensFrom_atom [c] cs
    have hfault : Token.ofAtom ([c].reverse ++ more) = .fault .malformed :=
      ofAtom_of_isBlank hc more
    refine .inr ⟨?_, hspace⟩
    rw [read, tokens, tokensFrom_step hstep, hmore, hfault, List.nil_append, run_malformed]

/-- At the end of a text white space makes no difference, or what is there is not read. -/
theorem run_concat_of_isBlank (s : State) (mode : Mode) :
    run s (tokensFrom mode [c]) = run s (tokensFrom mode []) ∨
      run s (tokensFrom mode [c]) = .error .malformed := by
  cases mode with
  | between =>
    rcases step_between_of_isBlank hc with ⟨hstep, -⟩ | ⟨hstep, -⟩
    · rw [tokensFrom_step hstep]
      exact .inl rfl
    · have hfault : tokensFrom (.atom [c]) [] = [.fault .malformed] :=
        congrArg (fun t => [t]) (ofAtom_of_isBlank hc [])
      rw [tokensFrom_step hstep, hfault, List.nil_append, run_malformed]
      exact .inr rfl
  | atom read =>
    rcases step_atom_of_isBlank hc read with ⟨hstep, -⟩ | ⟨hstep, -⟩
    · rw [tokensFrom_step hstep]
      exact .inl rfl
    · have hforeign := ofAtom_foreign (foreign_of_isBlank hc) read.reverse []
      rw [tokensFrom_step hstep, tokensFrom, tokensFrom, List.nil_append, List.reverse_cons]
      rcases hforeign with hbad | ⟨cause, hcause, hsame⟩
      · rw [hbad, run_malformed]
        exact .inr rfl
      · rw [hcause, hsame]
        exact .inl rfl
  | text read high =>
    rcases step_text_of_isBlank hc read high with hstep | hstep
    · rw [tokensFrom_stuck hstep]
      exact .inl rfl
    · rw [tokensFrom_step hstep]
      exact .inl rfl
  | escape read high =>
    rw [tokensFrom_stuck (step_escape_of_isBlank hc read high).1]
    exact .inl rfl
  | unicode read high digits code =>
    rw [tokensFrom_stuck ((step_escape_of_isBlank hc read high).2 digits code)]
    exact .inl rfl

/-- White space after a document is passed over, or the document is not read. -/
theorem read_concat_of_isBlank (cs : List Char) :
    read (cs ++ [c]) = read cs ∨ read (cs ++ [c]) = .error .malformed := by
  apply read_congr
  rw [tokens, tokens]
  rcases tokensFrom_append .between cs with ⟨ts, next, hnext⟩ | ⟨ts, hfault⟩
  · have hcs := hnext []
    rw [List.append_nil] at hcs
    rw [hnext, hcs, run_append, run_append]
    cases run (.value, []) ts with
    | error cause => exact .inl rfl
    | ok s => exact run_concat_of_isBlank hc s next
  · have hcs := hfault []
    rw [List.append_nil] at hcs
    rw [hfault, hcs]
    exact .inl rfl

/-- In a text that is read, other white space than that of documents is within a text. -/
theorem text_of_sound {mode : Mode} {rest : List Char} (hspace : isSpace c = false)
    (h : Sound (tokensFrom mode (c :: rest))) : ∃ read high, mode = .text read high := by
  have hforeign := foreign_of_isBlank hc
  cases mode with
  | between =>
    rcases step_between_of_isBlank hc with ⟨-, hspace'⟩ | ⟨hstep, -⟩
    · rw [hspace] at hspace'
      cases hspace'
    · rw [tokensFrom_step hstep] at h
      exact absurd h (not_sound_foreign hforeign [] rest)
  | atom read =>
    rcases step_atom_of_isBlank hc read with ⟨-, hspace'⟩ | ⟨hstep, -⟩
    · rw [hspace] at hspace'
      cases hspace'
    · rw [tokensFrom_step hstep] at h
      exact absurd h (not_sound_foreign hforeign read rest)
  | text read high => exact ⟨read, high, rfl⟩
  | escape read high =>
    exact absurd h (not_sound_stuck (step_escape_of_isBlank hc read high).1 rest)
  | unicode read high digits code =>
    exact absurd h (not_sound_stuck ((step_escape_of_isBlank hc read high).2 digits code) rest)
end

theorem Sound.append {ts us : List Token} : Sound (ts ++ us) ↔ Sound ts ∧ Sound us := by
  simp only [Sound, List.mem_append, not_or, forall_and]

/-- What is read next belongs to no text with quotation marks. -/
inductive Outside : Mode → Prop
  | between : Outside .between
  | atom (read : List Char) : Outside (.atom read)

theorem outside_begin {c : Char} (hc : c ≠ '"') : Outside (begin c).1 := by
  rw [begin, if_neg hc]
  split
  · exact .between
  · cases punctuation? c with
    | none => exact .atom [c]
    | some t => exact .between

theorem Outside.step {mode : Mode} (h : Outside mode) {c : Char} (hc : c ≠ '"') :
    ∃ next ts, Json.step mode c = some (next, ts) ∧ Outside next := by
  cases h with
  | between => exact ⟨_, _, rfl, outside_begin hc⟩
  | atom read =>
    rw [Json.step]
    split
    · exact ⟨_, _, rfl, outside_begin hc⟩
    · exact ⟨_, _, rfl, .atom (c :: read)⟩

/-- A quotation mark outside of texts begins one. -/
theorem Outside.quote {mode : Mode} (h : Outside mode) :
    ∃ ts, Json.step mode '"' = some (.text [] none, ts) := by
  cases h with
  | between => exact ⟨_, rfl⟩
  | atom read => exact ⟨_, rfl⟩

/-- A backslash outside of texts is a fault. -/
theorem Outside.slash {mode : Mode} (h : Outside mode) (cs : List Char) :
    ¬ Sound (tokensFrom mode ('\\' :: cs)) := by
  have hforeign : Foreign '\\' := by decide
  cases h with
  | between =>
    have hstep : Json.step .between '\\' = some (.atom ['\\'], []) := rfl
    rw [tokensFrom_step hstep]
    exact not_sound_foreign hforeign [] cs
  | atom read =>
    have hstep : Json.step (.atom read) '\\' = some (.atom ('\\' :: read), []) := rfl
    rw [tokensFrom_step hstep]
    exact not_sound_foreign hforeign read cs

/-- What can be read within a text cannot be read outside of texts: the quotation marks that end
the one begin the other. -/
theorem not_sound_both {mode : Mode} (hmode : Outside mode) {read : List Char} {high : Option Nat}
    {cs : List Char} (hin : Sound (tokensFrom (.text read high) cs)) :
    ¬ Sound (tokensFrom mode cs) := by
  intro hout
  induction cs generalizing read high mode with
  | nil => exact hin .malformed List.mem_cons_self
  | cons c cs ih =>
    by_cases hquote : c = '"'
    · subst hquote
      have hclose : step (.text read high) '"' =
          some (.between, [.value (.text (String.ofList (settle read high).reverse))]) := rfl
      obtain ⟨ts, hopen⟩ := hmode.quote
      rw [tokensFrom_step hclose, Sound.append] at hin
      rw [tokensFrom_step hopen, Sound.append] at hout
      exact ih .between hout.2 hin.2
    by_cases hslash : c = '\\'
    · subst hslash
      exact hmode.slash cs hout
    obtain ⟨next, ts, hstep, hnext⟩ := hmode.step hquote
    rw [tokensFrom_step hstep, Sound.append] at hout
    rcases step_text hquote hslash read high with hplain | hplain
    · exact not_sound_stuck hplain cs hin
    · rw [tokensFrom_step hplain] at hin
      exact ih hnext hin hout.2

theorem read_of_cut {line cs : List Char} (h : Cut line cs) :
    read line = read cs ∨ read line = .error .malformed := by
  obtain ⟨front, back, rfl, hfront, hback⟩ := h
  have hend : read (cs ++ back) = read cs ∨ read (cs ++ back) = .error .malformed := by
    induction back using List.reverseRecOn with
    | nil => exact .inl (by rw [List.append_nil])
    | append_singleton back c ih =>
      rw [List.all_append, Bool.and_eq_true] at hback
      have hc : isBlank c = true := by simpa using hback.2
      rw [← List.append_assoc]
      rcases read_concat_of_isBlank hc (cs ++ back) with hsame | hbad
      · rw [hsame]
        exact ih hback.1
      · exact .inr hbad
  rw [List.append_assoc]
  induction front with
  | nil => exact hend
  | cons c front ih =>
    rw [List.all_cons, Bool.and_eq_true] at hfront
    rw [List.cons_append]
    rcases read_cons_of_isBlank hfront.1 (front ++ (cs ++ back)) with ⟨hsame, -⟩ | ⟨hbad, -⟩
    · rw [hsame]
      exact ih hfront.2
    · exact .inr hbad

/-- What can be read of a document can be read when white space is cut off at its ends. -/
theorem read_cut {line cs : List Char} (h : Cut line cs) (hread : read line ≠ .error .malformed) :
    read cs = read line :=
  ((read_of_cut h).resolve_right hread).symm

section
variable {c : Char} (hc : isBlank c = true) (hspace : isSpace c = false) {front back : List Char}
  {v : Json} (h : read (front ++ c :: back) = .ok v)
include hc hspace h

/-- Where a document that is read has other white space than that of documents, it is in a text. -/
theorem exists_text : ∃ ts s read high read',
    (∀ rest, tokens (front ++ rest) = ts ++ tokensFrom (.text read high) rest) ∧
    run (.value, []) ts = .ok s ∧ Sound (tokensFrom (.text read' none) back) := by
  have hrun := read_eq_ok.mp h
  have hsound := sound_of_run hrun
  rw [tokens] at hrun hsound
  rcases tokensFrom_append .between front with ⟨ts, next, hnext⟩ | ⟨ts, hfault⟩
  · rw [hnext] at hrun hsound
    rw [Sound.append] at hsound
    obtain ⟨read, high, rfl⟩ := text_of_sound hc hspace hsound.2
    have hback : Sound (tokensFrom (.text (c :: settle read high) none) back) := by
      rcases step_text_of_isBlank hc read high with hstep | hstep
      · exact absurd hsound.2 (not_sound_stuck hstep back)
      · rw [tokensFrom_step hstep] at hsound
        exact hsound.2
    rw [run_append] at hrun
    cases hts : run (.value, []) ts with
    | error cause =>
      rw [hts] at hrun
      cases hrun
    | ok s => exact ⟨ts, s, read, high, _, hnext, hts, hback⟩
  · rw [hfault, Sound.append] at hsound
    exact absurd List.mem_cons_self (hsound.2 .malformed)

/-- What is before such white space is no document. -/
theorem read_front : read front = .error .malformed := by
  obtain ⟨ts, s, read', high, -, htokens, hts, -⟩ := exists_text hc hspace h
  have hfront : tokens front = ts ++ [.fault .malformed] := by
    have hnil := htokens []
    rwa [List.append_nil] at hnil
  rw [read, hfront, run_append, hts]
  dsimp only
  rw [run_malformed]

/-- What is behind such white space is no document. -/
theorem read_back (w : Json) : read back ≠ .ok w := by
  intro hback
  obtain ⟨ts, s, read', high, read'', -, -, hsound⟩ := exists_text hc hspace h
  exact not_sound_both .between hsound (sound_of_run (read_eq_ok.mp hback))

/-- More than white space is before such white space. -/
theorem not_isBlank_front : ¬ front.all isBlank = true := by
  intro hfront
  have hcut : Cut (front ++ c :: back) (c :: back) := ⟨front, [], by simp, hfront, rfl⟩
  have hread := (read_cut hcut (by simp [h])).trans h
  rcases read_cons_of_isBlank hc back with ⟨-, hspace'⟩ | ⟨hbad, -⟩
  · rw [hspace] at hspace'
    cases hspace'
  · rw [hbad] at hread
    cases hread

/-- More than white space is behind such white space. -/
theorem not_isBlank_back : ¬ back.all isBlank = true := by
  intro hback
  have hcut : Cut (front ++ c :: back) (front ++ [c]) := ⟨[], back, by simp, rfl, hback⟩
  have hread := (read_cut hcut (by simp [h])).trans h
  obtain ⟨ts, s, read', high, read'', -, -, hsound⟩ := exists_text hc hspace hread
  exact hsound .malformed List.mem_cons_self

end
end CodeAudit.Json
