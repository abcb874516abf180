import CodeAudit.Json.Reader
import Mathlib.Data.List.Forall2
namespace CodeAudit.Json

/-- Tokens that are the same but for what a text says. -/
inductive Token.Alike : Token → Token → Prop
  | same (t : Token) : Alike t t
  | texts (s s' : String) : Alike (.value (.text s)) (.value (.text s'))

/-- Containers of one kind. -/
inductive Frame.Alike : Frame → Frame → Prop
  | list (done done' : List Json) : Alike (.list done) (.list done')
  | record (done done' : Fields Empty) (n n' : String) : Alike (.record done n) (.record done' n')

/-- Places where the same may come next. -/
inductive Place.Alike : Place → Place → Prop
  | value : Alike .value .value
  | firstItem : Alike .firstItem .firstItem
  | name (done done' : Fields Empty) : Alike (.name done) (.name done')
  | firstName : Alike .firstName .firstName
  | colon (done done' : Fields Empty) (n n' : String) : Alike (.colon done n) (.colon done' n')
  | after (v v' : Json) : Alike (.after v) (.after v')

/-- States that differ at most in the values read so far. -/
structure StatesAlike (s s' : State) : Prop where
  place : s.1.Alike s'.1
  frames : List.Forall₂ Frame.Alike s.2 s'.2

/-- Answers that are one fault, or alike. -/
inductive AnswersAlike : Except Unreadable State → Except Unreadable State → Prop
  | ok {s s' : State} (h : StatesAlike s s') : AnswersAlike (.ok s) (.ok s')
  | error (cause : Unreadable) : AnswersAlike (.error cause) (.error cause)

/-- A token leads from alike states to alike states, or it is the same fault in both. -/
theorem advance_alike {s s' : State} {t t' : Token} (hs : StatesAlike s s')
    (ht : t.Alike t') : AnswersAlike (advance s t) (advance s' t') := by
  obtain ⟨place, k⟩ := s
  obtain ⟨place', k'⟩ := s'
  obtain ⟨hplace, hk⟩ := hs
  dsimp only at hplace hk
  cases hplace with
  | value =>
    cases ht with
    | texts => exact .ok ⟨.after _ _, hk⟩
    | same =>
      cases t with
      | value v => exact .ok ⟨.after _ _, hk⟩
      | openList => exact .ok ⟨.firstItem, hk⟩
      | openRecord => exact .ok ⟨.firstName, hk⟩
      | _ => exact .error _
  | firstItem =>
    have hlist : List.Forall₂ Frame.Alike (.list [] :: k) (.list [] :: k') := .cons (.list _ _) hk
    cases ht with
    | texts => exact .ok ⟨.after _ _, hlist⟩
    | same =>
      cases t with
      | closeList => exact .ok ⟨.after _ _, hk⟩
      | value v => exact .ok ⟨.after _ _, hlist⟩
      | openList => exact .ok ⟨.firstItem, hlist⟩
      | openRecord => exact .ok ⟨.firstName, hlist⟩
      | _ => exact .error _
  | name =>
    cases ht with
    | texts => exact .ok ⟨.colon .., hk⟩
    | same =>
      cases t with
      | value v =>
        cases v with
        | text n => exact .ok ⟨.colon .., hk⟩
        | _ => exact .error _
      | _ => exact .error _
  | firstName =>
    cases ht with
    | texts => exact .ok ⟨.colon .., hk⟩
    | same =>
      cases t with
      | closeRecord => exact .ok ⟨.after _ _, hk⟩
      | value v =>
        cases v with
        | text n => exact .ok ⟨.colon .., hk⟩
        | _ => exact .error _
      | _ => exact .error _
  | colon =>
    cases ht with
    | texts => exact .error _
    | same =>
      cases t with
      | colon => exact .ok ⟨.value, .cons (.record ..) hk⟩
      | _ => exact .error _
  | after v v' =>
    cases hk with
    | nil => cases ht with
      | texts => exact .error _
      | same => cases t <;> exact .error _
    | cons hframe hk =>
      cases hframe with
      | list done done' =>
        cases ht with
        | texts => exact .error _
        | same =>
          cases t with
          | comma => exact .ok ⟨.value, .cons (.list _ _) hk⟩
          | closeList => exact .ok ⟨.after _ _, hk⟩
          | _ => exact .error _
      | record done done' n n' =>
        cases ht with
        | texts => exact .error _
        | same =>
          cases t with
          | comma => exact .ok ⟨.name _ _, hk⟩
          | closeRecord => exact .ok ⟨.after _ _, hk⟩
          | _ => exact .error _

/-- Tokens that are alike lead from alike states to alike ones, or stop at the same fault. -/
theorem run_alike {s s' : State} {ts ts' : List Token} (hs : StatesAlike s s')
    (hts : List.Forall₂ Token.Alike ts ts') : AnswersAlike (run s ts) (run s' ts') := by
  induction hts generalizing s s' with
  | nil => exact .ok hs
  | @cons t t' ts ts' ht _ ih =>
    rw [run, run]
    have hadvance := advance_alike hs ht
    revert hadvance
    generalize advance s t = x
    generalize advance s' t' = x'
    rintro (⟨hnext⟩ | cause)
    · exact ih hnext
    · exact .error cause

/-- What the texts of a document say does not decide why it cannot be read. -/
theorem read_error_alike {cs cs' : List Char}
    (h : List.Forall₂ Token.Alike (tokens cs) (tokens cs')) {cause : Unreadable} :
    read cs = .error cause ↔ read cs' = .error cause := by
  have hstart : StatesAlike (.value, []) (.value, []) := ⟨.value, .nil⟩
  have hrun := run_alike hstart h
  rw [read, read]
  revert hrun
  generalize run (.value, []) (tokens cs) = x
  generalize run (.value, []) (tokens cs') = x'
  intro hrun
  cases hrun with
  | error cause' => exact Iff.rfl
  | @ok s s' hs =>
    obtain ⟨place, k⟩ := s
    obtain ⟨place', k'⟩ := s'
    obtain ⟨hplace, hk⟩ := hs
    dsimp only at hplace hk
    cases hplace with
    | after v v' =>
      cases hk with
      | nil => exact ⟨nofun, nofun⟩
      | cons => exact Iff.rfl
    | _ => exact Iff.rfl

end CodeAudit.Json
