import CodeAudit.Analyzer.Catalog
import CodeAudit.Proofs.Analyzer.Demand
namespace CodeAudit

/-- What users of a reader have to expect: what was read, or a failure told of the analyzer. -/
def Foreseen {α : Type} (x : Except Fault α) : Prop :=
  (∃ a, x = .ok a) ∨ ∃ m, x = .error (.toolOutput m)

/-- An answer that is foreseen exactly if some demands are met; any other fault tells of one that
is not. -/
structure Relies {α : Type} (ds : List Demand) (x : Except Fault α) : Prop where
  foreseen : Foreseen x ↔ ∀ d ∈ ds, d.Met
  raises : ∀ f, x = .error f → (∃ m, f = .toolOutput m) ∨ ∃ d ∈ ds, ¬ d.Met ∧ d.Raises f

namespace Relies
variable {α β : Type} {ds : List Demand} {x : Except Fault α}

theorem of_asks (h : Asks ds x) : Relies ds x := by
  constructor
  · constructor
    · rintro (⟨a, ha⟩ | ⟨m, hm⟩)
      · exact h.met a ha
      · obtain ⟨d, -, -, hraises⟩ := h.raises _ hm
        exact absurd rfl (hraises.ne_toolOutput m)
    · intro hmet
      cases x with
      | ok a => exact .inl ⟨a, rfl⟩
      | error f =>
        obtain ⟨d, hd, hunmet, -⟩ := h.raises f rfl
        exact absurd (hmet d hd) hunmet
  · exact fun f hf => .inr (h.raises f hf)

theorem cons {d : Demand} (hd : d.Met) (h : Relies ds x) : Relies (d :: ds) x where
  foreseen := by rw [h.foreseen, List.forall_mem_cons, and_iff_right hd]
  raises f hf := by
    rcases h.raises f hf with hm | ⟨e, he, hunmet⟩
    · exact .inl hm
    · exact .inr ⟨e, List.mem_cons_of_mem d he, hunmet⟩

theorem refused (m : String) : Relies [] (Output.fault m : Except Fault α) where
  foreseen := by simp [Foreseen, Output.fault]
  raises f hf := by
    cases hf
    exact .inl ⟨m, rfl⟩

theorem refused_or {c : Prop} [Decidable c] (m : String) (a : α) :
    Relies [] (if c then Output.fault m else pure a : Except Fault α) := by
  split
  · exact refused m
  · exact of_asks (.ok a)

theorem map (h : Relies ds x) (f : α → β) : Relies ds (x.map f) := by
  have hforeseen : Foreseen (x.map f) ↔ Foreseen x := by
    cases x <;> simp [Foreseen, Except.map]
  refine ⟨hforeseen.trans h.foreseen, fun g hg => ?_⟩
  cases x with
  | ok a => cases hg
  | error g' =>
    cases hg
    exact h.raises g rfl

theorem ite {c : Prop} [Decidable c] {es : List Demand} {y : Except Fault α} (hx : Relies ds x)
    (hy : Relies es y) : Relies (if c then ds else es) (if c then x else y) := by
  split
  · exact hx
  · exact hy

end Relies

namespace Output

/-- What is relied on in a document, given what is relied on in the value that it holds. -/
def inDocument (demands : Json → List Demand) (cs : List Char) : List Demand :=
  .document cs :: match Json.read cs with
    | .ok v => demands v
    | .error _ => []

theorem relies_document {α : Type} {demands : Json → List Demand} {f : Json → Except Fault α}
    {m : String} (h : ∀ v, Asks (demands v) (f v)) (cs : List Char) :
    Relies (inDocument demands cs)
      (match Json.read cs with
        | .ok v => f v
        | .error e => unreadable m e) := by
  have hmet (hread : ∀ n, Json.read cs ≠ .error (.integerTooLong n)) :
      (Demand.document cs).Met := hread
  rw [inDocument]
  rcases hread : Json.read cs with (_ | n) | v
  · have hall : ∀ d ∈ [Demand.document cs], d.Met :=
      List.forall_mem_singleton.mpr (hmet (by simp [hread]))
    refine ⟨⟨fun _ => hall, fun _ => .inr ⟨m, rfl⟩⟩, fun g hg => ?_⟩
    cases hg
    exact .inl ⟨m, rfl⟩
  · have hunmet : ¬ (Demand.document cs).Met := fun hmet => hmet n hread
    exact .of_asks (.of_unmet hunmet (.longInteger n))
  · exact .of_asks ((h v).cons (hmet (by simp [hread])))

/-- What is relied on where a document is printed, unless nothing is. -/
def inPrinted (demands : Json → List Demand) (o : Output) : List Demand :=
  if o.silent then [] else inDocument demands o.stdout.toList

theorem relies_printed {tool : String} {demands : Json → List Demand}
    {f : Json → Except Fault (List Finding)} {silent : Except Fault (List Finding)}
    (hs : Relies [] silent) (h : ∀ v, Asks (demands v) (f v)) (o : Output) :
    Relies (inPrinted demands o) (if o.silent then silent else document tool o.stdout >>= f) := by
  have hdocument : (document tool o.stdout >>= f) =
      match Json.read o.stdout.toList with
      | .ok v => f v
      | .error e =>
        unreadable (tool ++ ": failed to parse JSON output: " ++ excerpt o.stdout 200) e := by
    rw [document, Json.parse]
    rcases Json.read o.stdout.toList with (_ | n) | v <;> rfl
  rw [hdocument]
  exact .ite hs (relies_document h _)

def recordLines (lines : List (List Char)) : List (Fields Empty) :=
  lines.filterMap fun line => match Json.read line with
    | .ok (.record fields) => some fields
    | _ => none

theorem asks_recordsIn (lines : List (List Char)) :
    Asks (lines.map .document) (recordsIn lines) := by
  induction lines with
  | nil => exact .ok []
  | cons cs rest ih =>
    have hmet (h : ∀ n, Json.read cs ≠ .error (.integerTooLong n)) :
        (Demand.document cs).Met := h
    rw [recordsIn, List.map_cons]
    split
    · next fields hread => exact (ih.map (fields :: ·)).cons (hmet (by simp [hread]))
    · next v _ hread => exact ih.cons (hmet (by simp [hread]))
    · next hread => exact ih.cons (hmet (by simp [hread]))
    · next n hread => exact .of_unmet (fun hmet => hmet n hread) (.longInteger n)

theorem recordsIn_ok {lines : List (List Char)} {rs : List (Fields Empty)}
    (h : recordsIn lines = .ok rs) : rs = recordLines lines := by
  induction lines generalizing rs with
  | nil =>
    cases h
    rfl
  | cons cs rest ih =>
    rw [recordsIn] at h
    rw [recordLines, List.filterMap_cons]
    split at h
    · next fields hread =>
      obtain ⟨rs', hrs', rfl⟩ := map_eq_ok.mp h
      rw [hread, ih hrs']
      rfl
    · next v hother hread =>
      rw [hread, ih h]
      cases v with
      | record fields => exact (hother fields rfl).elim
      | _ => rfl
    · next hread =>
      rw [hread, ih h]
      rfl
    · cases h

/-- What is relied on in lines, given what is relied on in the records among them. -/
def inLines (demands : Fields Empty → List Demand) (stdout : String) : List Demand :=
  let lines := Text.splitLines (Text.trim stdout.toList)
  lines.map .document ++ (recordLines lines).flatMap demands

theorem asks_records {demands : Fields Empty → List Demand}
    {f : Fields Empty → Except Fault (List Finding)} (h : ∀ item, Asks (demands item) (f item))
    (stdout : String) : Asks (inLines demands stdout) (records stdout >>= each f) := by
  apply (asks_recordsIn (Text.splitLines (Text.trim stdout.toList))).bind
  intro rs hrs
  rw [recordsIn_ok hrs]
  exact .each fun item _ => h item

/-- Where a finding stands, if fields of their own give its line and its column. -/
def place (fields : Fields Empty) (line column : String) : List Demand :=
  [.number (fields.get line), .number (fields.get column)]

theorem asks_place {α : Type} (fields : Fields Empty) (name column : String)
    (f : Int → Option Int → α) :
    Asks (place fields name column) (do
      let n ← line fields [name]
      let m ← positive? (fields.get column)
      return f n m) := by
  refine (asks_line_singleton fields name).bind fun n _ => ?_
  refine (asks_positive (fields.get column)).bind_ok fun m => ?_
  exact ⟨f n m, rfl⟩

end Output

end CodeAudit
