import CodeAudit.Json.Reader
import CodeAudit.Proofs.Data.Fields
import CodeAudit.Proofs.Json.Spelled
namespace CodeAudit.Json

mutual
/-- What a text can hold: integers of no more digits than are converted, and in each record names
that differ. -/
def Legible : Json → Prop
  | .null => True
  | .bool _ => True
  | .int n => Decimal.digitCount n.natAbs ≤ Text.maxIntegerDigits
  | .float _ => True
  | .text _ => True
  | .list items => LegibleItems items
  | .record fields => (Fields.names fields).Nodup ∧ LegibleFields fields

def LegibleItems : List Json → Prop
  | [] => True
  | x :: xs => Legible x ∧ LegibleItems xs

def LegibleFields : Fields Empty → Prop
  | [] => True
  | (_, x) :: xs => Legible x ∧ LegibleFields xs
end

theorem legibleItems_iff {xs : List Json} : LegibleItems xs ↔ ∀ x ∈ xs, Legible x := by
  induction xs with
  | nil => simp [LegibleItems]
  | cons x xs ih => rw [LegibleItems, ih, List.forall_mem_cons]

theorem legibleFields_iff {fields : Fields Empty} :
    LegibleFields fields ↔ ∀ p ∈ fields, Legible p.2 := by
  induction fields with
  | nil => simp [LegibleFields]
  | cons field rest ih =>
    obtain ⟨n, x⟩ := field
    rw [LegibleFields, ih, List.forall_mem_cons]

@[simp]
theorem legible_bool (b : Bool) : Legible (.bool b) := by
  rw [Legible]
  trivial

@[simp]
theorem legible_float (x : Double) : Legible (.float x) := by
  rw [Legible]
  trivial

@[simp]
theorem legible_text (s : String) : Legible (.text s) := by
  rw [Legible]
  trivial

@[simp]
theorem legible_list {items : List Json} :
    Legible (.list items) ↔ ∀ x ∈ items, Legible x := by
  rw [Legible, legibleItems_iff]

@[simp]
theorem legible_record {fields : Fields Empty} :
    Legible (.record fields) ↔ (Fields.names fields).Nodup ∧ ∀ p ∈ fields, Legible p.2 := by
  rw [Legible, legibleFields_iff]

theorem legible_digit {n : Int} (hn : n.natAbs < 10) : Legible (.int n) := by
  rw [Legible, Decimal.digitCount, Nat.toDigits_of_lt_base hn]
  show 1 ≤ Text.maxIntegerDigits
  decide

/-- A count is legible if a greater one is. -/
theorem legible_count {m n : Nat} (hle : m ≤ n) (hn : Legible (.int n)) : Legible (.int m) := by
  rw [Legible, Decimal.digitCount, Nat.length_toDigits_le_iff (by decide) (by decide)] at hn ⊢
  rw [Int.natAbs_natCast] at hn ⊢
  exact Nat.lt_of_le_of_lt hle hn

mutual
/-- In each record of a document the names differ. -/
def Distinct : Json → Prop
  | .list items => DistinctItems items
  | .record fields => (Fields.names fields).Nodup ∧ DistinctFields fields
  | _ => True

def DistinctItems : List Json → Prop
  | [] => True
  | x :: xs => Distinct x ∧ DistinctItems xs

def DistinctFields : Fields Empty → Prop
  | [] => True
  | (_, x) :: xs => Distinct x ∧ DistinctFields xs
end

mutual
/-- What a text can hold is what can be written and tells all names of a record apart. -/
theorem legible_iff : ∀ v : Json, Legible v ↔ writable v = true ∧ Distinct v
  | .null => by simp [Legible, writable, Distinct]
  | .bool b => by simp [writable, Distinct]
  | .int n => by simp [Legible, writable, integerFits, Distinct]
  | .float x => by simp [writable, Distinct]
  | .text s => by simp [writable, Distinct]
  | .list items => by rw [Legible, writable, Distinct, legibleItems_iff_writable items]
  | .record fields => by
    rw [Legible, writable, Distinct, legibleFields_iff_writable fields, and_left_comm]
  | .other value => value.elim

theorem legibleItems_iff_writable : ∀ xs : List Json,
    LegibleItems xs ↔ writableItems xs = true ∧ DistinctItems xs
  | [] => by simp [LegibleItems, writableItems, DistinctItems]
  | x :: xs => by
    rw [LegibleItems, writableItems, DistinctItems, Bool.and_eq_true, legible_iff x,
      legibleItems_iff_writable xs, and_and_and_comm]

theorem legibleFields_iff_writable : ∀ fields : Fields Empty,
    LegibleFields fields ↔ writableFields fields = true ∧ DistinctFields fields
  | [] => by simp [LegibleFields, writableFields, DistinctFields]
  | (n, x) :: xs => by
    rw [LegibleFields, writableFields, DistinctFields, Bool.and_eq_true, legible_iff x,
      legibleFields_iff_writable xs, and_and_and_comm]
end

@[simp]
theorem distinct_int (n : Int) : Distinct (.int n) := trivial

@[simp]
theorem distinct_float (x : Double) : Distinct (.float x) := trivial

@[simp]
theorem distinct_bool (b : Bool) : Distinct (.bool b) := trivial

@[simp]
theorem distinct_text (s : String) : Distinct (.text s) := trivial

@[simp]
theorem distinct_list {items : List Json} :
    Distinct (.list items) ↔ ∀ x ∈ items, Distinct x := by
  rw [Distinct]
  induction items with
  | nil => simp [DistinctItems]
  | cons x xs ih => rw [DistinctItems, ih, List.forall_mem_cons]

@[simp]
theorem distinct_record {fields : Fields Empty} :
    Distinct (.record fields) ↔ (Fields.names fields).Nodup ∧ ∀ p ∈ fields, Distinct p.2 := by
  have hfields : DistinctFields fields ↔ ∀ p ∈ fields, Distinct p.2 := by
    induction fields with
    | nil => simp [DistinctFields]
    | cons field rest ih => rw [DistinctFields, ih, List.forall_mem_cons]
  rw [Distinct, hfields]

mutual
/-- A document with other doubles, and everything else as it is. -/
def mapFloats (f : Double → Double) : Json → Json
  | .null => .null
  | .bool b => .bool b
  | .int n => .int n
  | .float x => .float (f x)
  | .text s => .text s
  | .list items => .list (mapFloatsItems f items)
  | .record fields => .record (mapFloatsFields f fields)

def mapFloatsItems (f : Double → Double) : List Json → List Json
  | [] => []
  | x :: xs => mapFloats f x :: mapFloatsItems f xs

def mapFloatsFields (f : Double → Double) : Fields Empty → Fields Empty
  | [] => []
  | (n, x) :: xs => (n, mapFloats f x) :: mapFloatsFields f xs
end

theorem tokens_mark {c : Char} {t : Token} (h : begin c = (.between, [t])) (rest : List Char) :
    tokensFrom .between (c :: rest) = t :: tokensFrom .between rest := by
  have hstep : step .between c = some (.between, [t]) := congrArg some h
  exact tokensFrom_step hstep rest

theorem tokens_space {c : Char} (h : isSpace c = true) (rest : List Char) :
    tokensFrom .between (c :: rest) = tokensFrom .between rest := by
  have hbegin : begin c = (.between, []) := if_pos h
  have hstep : step .between c = some (.between, []) := congrArg some hbegin
  exact tokensFrom_step hstep rest

/-- Where an item begins makes no difference. -/
theorem tokens_break (layout : Layout) (rest : List Char) :
    tokensFrom .between (layout.break ++ rest) = tokensFrom .between rest := by
  cases layout with
  | line => rfl
  | indented width depth =>
    rw [Layout.break, List.cons_append, tokens_space rfl]
    induction width * depth with
    | zero => rfl
    | succ n ih => rw [List.replicate_succ, List.cons_append, tokens_space rfl, ih]

theorem tokens_separator (layout : Layout) (rest : List Char) :
    tokensFrom .between (layout.separator ++ rest) = .comma :: tokensFrom .between rest := by
  cases layout with
  | line => rw [Layout.separator, List.cons_append, tokens_mark rfl, List.singleton_append,
      tokens_space rfl]
  | indented width depth => rw [Layout.separator, List.cons_append, tokens_mark rfl, tokens_break]

theorem parted_break (layout : Layout) {rest : List Char} (hrest : Parted rest) :
    Parted (layout.break ++ rest) := by
  cases layout with
  | line => exact hrest
  | indented width depth => exact parted_cons rfl _

theorem parted_separator (layout : Layout) (rest : List Char) :
    Parted (layout.separator ++ rest) := by
  cases layout with
  | line => exact parted_cons rfl _
  | indented width depth => exact parted_cons rfl _

theorem parted_items (layout : Layout) (xs : List Json) {rest : List Char} (hrest : Parted rest) :
    Parted (writtenItems layout xs ++ rest) := by
  cases xs with
  | nil => exact hrest
  | cons x xs =>
    rw [writtenItems, List.append_assoc, List.append_assoc]
    exact parted_separator layout _

theorem parted_fields (layout : Layout) (fields : Fields Empty) {rest : List Char}
    (hrest : Parted rest) : Parted (writtenFields layout fields ++ rest) := by
  cases fields with
  | nil => exact hrest
  | cons field fields =>
    rw [writtenFields]
    simp only [List.append_assoc]
    exact parted_separator layout _

theorem run_cons {s next : State} {t : Token} (h : advance s t = .ok next) (ts : List Token) :
    run s (t :: ts) = run next ts := by
  rw [run, h]

/-- Where a value may come, and what it comes to stand in. -/
inductive Awaits : State → List Frame → Prop
  | value (k : List Frame) : Awaits (.value, k) k
  | first (k : List Frame) : Awaits (.firstItem, k) (.list [] :: k)

section
variable {s : State} {k : List Frame} (h : Awaits s k)
include h

theorem Awaits.takes (v : Json) : advance s (.value v) = .ok (.after v, k) := by
  cases h with
  | value => rfl
  | first => rfl

theorem Awaits.opensList : advance s .openList = .ok (.firstItem, k) := by
  cases h with
  | value => rfl
  | first => rfl

theorem Awaits.opensRecord : advance s .openRecord = .ok (.firstName, k) := by
  cases h with
  | value => rfl
  | first => rfl

end

/-- What each double is read back as, wherever it is written. -/
def Rereads (f : Double → Double) : Prop :=
  ∀ x rest, Parted rest → tokensFrom .between ((floatText x).toList ++ rest) =
    .value (.float (f x)) :: tokensFrom .between rest

theorem exists_rereads : ∃ f, Rereads f := Classical.skolem.mp tokens_floatText

variable {f : Double → Double}

mutual
/-- A value that is written where one may come is what comes there, by recursion on the document.
What follows it is arbitrary but parted from it, and the containers still open stay below. -/
theorem run_written (hf : Rereads f) : ∀ (v : Json) (layout : Layout) {s : State} {k : List Frame}
    {rest : List Char}, Legible v → Awaits s k → Parted rest →
    run s (tokensFrom .between (written layout v ++ rest)) =
      run (.after (mapFloats f v), k) (tokensFrom .between rest)
  | .null, layout, s, k, rest, _, hs, hrest => by
    rw [written, tokens_atom (by decide) (by decide) hrest]
    exact run_cons (hs.takes _) _
  | .bool b, layout, s, k, rest, _, hs, hrest => by
    rw [written]
    cases b with
    | true =>
      rw [if_pos rfl, tokens_atom (by decide) (by decide) hrest]
      exact run_cons (hs.takes _) _
    | false =>
      rw [if_neg Bool.false_ne_true, tokens_atom (by decide) (by decide) hrest]
      exact run_cons (hs.takes _) _
  | .int n, layout, s, k, rest, hv, hs, hrest => by
    rw [written, tokens_integerText (by rwa [Legible] at hv) hrest]
    exact run_cons (hs.takes _) _
  | .float x, layout, s, k, rest, _, hs, hrest => by
    rw [written, hf x rest hrest]
    exact run_cons (hs.takes _) _
  | .text t, layout, s, k, rest, _, hs, _ => by
    rw [written, tokens_writtenText]
    exact run_cons (hs.takes _) _
  | .list [], layout, s, k, rest, _, hs, _ => by
    rw [written, List.cons_append, tokens_mark rfl, List.singleton_append, tokens_mark rfl,
      run_cons hs.opensList]
    exact run_cons rfl _
  | .list (x :: xs), layout, s, k, rest, hv, hs, _ => by
    rw [Legible, LegibleItems] at hv
    have hend : Parted (layout.break ++ ']' :: rest) := parted_break layout (parted_cons rfl rest)
    have hitem := run_written hf x layout.inner hv.1 (.first k)
      (parted_items layout.inner xs hend)
    have hitems := run_items hf xs layout.inner layout (mapFloats f x) [] k rest hv.2
    have htext : written layout (.list (x :: xs)) ++ rest = '[' :: (layout.inner.break ++
        (written layout.inner x ++ (writtenItems layout.inner xs ++
          (layout.break ++ ']' :: rest)))) := by
      rw [written]
      simp
    rw [htext, tokens_mark rfl, run_cons hs.opensList, tokens_break, hitem, hitems]
    rfl
  | .record [], layout, s, k, rest, _, hs, _ => by
    rw [written, List.cons_append, tokens_mark rfl, List.singleton_append, tokens_mark rfl,
      run_cons hs.opensRecord]
    exact run_cons rfl _
  | .record ((n, x) :: xs), layout, s, k, rest, hv, hs, _ => by
    rw [Legible, LegibleFields] at hv
    have hend : Parted (layout.break ++ '\x7d' :: rest) :=
      parted_break layout (parted_cons rfl rest)
    have hvalue := run_written hf x layout.inner hv.2.1 (.value (.record [] n :: k))
      (parted_fields layout.inner xs hend)
    have hfields := run_fields hf xs layout.inner layout n (mapFloats f x) [] k rest hv.2.2 hv.1
    have htext : written layout (.record ((n, x) :: xs)) ++ rest = '\x7b' :: (layout.inner.break ++
        (writtenText n ++ (':' :: ' ' :: (written layout.inner x ++
          (writtenFields layout.inner xs ++ (layout.break ++ '\x7d' :: rest)))))) := by
      rw [written]
      simp
    rw [htext, tokens_mark rfl, run_cons hs.opensRecord, tokens_break, tokens_writtenText,
      run_cons rfl, tokens_mark rfl, run_cons rfl, tokens_space rfl, hvalue, hfields]
    rfl

/-- Further items, up to the end of their list. -/
theorem run_items (hf : Rereads f) : ∀ (xs : List Json) (layout outer : Layout) (x : Json)
    (done : List Json) (k : List Frame) (rest : List Char), LegibleItems xs →
    run (.after x, .list done :: k)
        (tokensFrom .between (writtenItems layout xs ++ (outer.break ++ ']' :: rest))) =
      run (.after (.list (done.reverse ++ x :: mapFloatsItems f xs)), k)
        (tokensFrom .between rest)
  | [], layout, outer, x, done, k, rest, _ => by
    have hlist : done.reverse ++ [x] = (x :: done).reverse := List.reverse_cons.symm
    rw [writtenItems, List.nil_append, tokens_break, tokens_mark rfl, mapFloatsItems, hlist]
    exact run_cons rfl _
  | y :: ys, layout, outer, x, done, k, rest, hxs => by
    rw [LegibleItems] at hxs
    have hend : Parted (outer.break ++ ']' :: rest) := parted_break outer (parted_cons rfl rest)
    have hitem := run_written hf y layout hxs.1 (.value (.list (x :: done) :: k))
      (parted_items layout ys hend)
    have hitems := run_items hf ys layout outer (mapFloats f y) (x :: done) k rest hxs.2
    rw [writtenItems, List.append_assoc, List.append_assoc, tokens_separator, run_cons rfl, hitem,
      hitems, mapFloatsItems, List.reverse_cons, List.append_assoc]
    rfl

/-- Further fields, up to the end of their record. -/
theorem run_fields (hf : Rereads f) : ∀ (fields : Fields Empty) (layout outer : Layout)
    (n : String) (x : Json) (done : Fields Empty) (k : List Frame) (rest : List Char),
    LegibleFields fields →
    (Fields.names done ++ n :: Fields.names fields).Nodup →
    run (.after x, .record done n :: k)
        (tokensFrom .between (writtenFields layout fields ++ (outer.break ++ '\x7d' :: rest))) =
      run (.after (.record (done ++ (n, x) :: mapFloatsFields f fields)), k)
        (tokensFrom .between rest)
  | [], layout, outer, n, x, done, k, rest, _, hnames => by
    have hput : Fields.put n x done = done ++ [(n, x)] := Fields.put_of_nodup hnames
    rw [writtenFields, List.nil_append, tokens_break, tokens_mark rfl, mapFloatsFields, ← hput]
    exact run_cons rfl _
  | (m, y) :: ys, layout, outer, n, x, done, k, rest, hfields, hnames => by
    rw [LegibleFields] at hfields
    have hput : Fields.put n x done = done ++ [(n, x)] := Fields.put_of_nodup hnames
    have hend : Parted (outer.break ++ '\x7d' :: rest) := parted_break outer (parted_cons rfl rest)
    have hvalue := run_written hf y layout hfields.1
      (.value (.record (done ++ [(n, x)]) m :: k)) (parted_fields layout ys hend)
    have hmore : (Fields.names (done ++ [(n, x)]) ++ m :: Fields.names ys).Nodup := by
      rw [Fields.names, List.map_append, List.append_assoc]
      exact hnames
    have hrest := run_fields hf ys layout outer m (mapFloats f y) (done ++ [(n, x)]) k rest
      hfields.2 hmore
    rw [writtenFields]
    simp only [List.append_assoc]
    have hcomma : advance (.after x, .record done n :: k) .comma =
        .ok (.name (done ++ [(n, x)]), k) := by
      rw [← hput]
      rfl
    rw [tokens_separator, run_cons hcomma, tokens_writtenText, run_cons rfl, List.cons_append,
      tokens_mark rfl, run_cons rfl, List.singleton_append, tokens_space rfl, hvalue, hrest,
      mapFloatsFields, List.append_assoc]
    rfl
end

/-- A document that a text can hold is read back from its text, with white space after it. -/
theorem read_written (hf : Rereads f) {v : Json} (hv : Legible v) (layout : Layout)
    {margin : List Char} (hmargin : ∀ c ∈ margin, isSpace c = true) :
    read (written layout v ++ margin) = .ok (mapFloats f v) := by
  have hparted : Parted margin := by
    intro c hc
    rw [ends, hmargin c (List.mem_of_mem_head? hc)]
    rfl
  have hnone : tokensFrom .between margin = [] := by
    clear hparted
    induction margin with
    | nil => rfl
    | cons c cs ih =>
      rw [tokens_space (hmargin c List.mem_cons_self)]
      exact ih fun d hd => hmargin d (List.mem_cons_of_mem c hd)
  have hrun := run_written hf v layout hv (.value []) hparted
  rw [read, tokens, hrun, hnone]
  rfl

/-- A document that a text can hold, and in which there are no doubles, is read back from its
line. -/
theorem parse_line {v : Json} (hv : Legible v) (hplain : ∀ f, mapFloats f v = v) :
    parse (line v) = .ok v := by
  obtain ⟨f, hf⟩ := exists_rereads
  have hread := read_written hf hv .line (List.forall_mem_nil _)
  rw [List.append_nil, hplain] at hread
  rw [parse, line, String.toList_ofList, hread]

end CodeAudit.Json
