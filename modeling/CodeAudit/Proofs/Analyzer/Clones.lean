import CodeAudit.Proofs.Analyzer.Carried
import Mathlib.Logic.Equiv.Basic
namespace CodeAudit

namespace Analyzer.Jscpd
open Output

/-- The clones of a report. -/
def duplicates (v : Json) : List (Fields Empty) := (Fields.get v.fields "duplicates").records

/-- An output whose report is a document. -/
def Reports (o : Output) (v : Json) : Prop :=
  ∃ bytes cs, o.files.lookup reportName = some bytes ∧ Text.decode bytes = .ok cs ∧
    Json.read (Text.unifyNewlines cs) = .ok v

theorem Reports.unique {o : Output} {v v' : Json} (h : Reports o v) (h' : Reports o v') :
    v = v' := by
  obtain ⟨bytes, cs, hfile, hdecode, hread⟩ := h
  obtain ⟨bytes', cs', hfile', hdecode', hread'⟩ := h'
  obtain rfl := Option.some.inj (hfile.symm.trans hfile')
  obtain rfl := Except.ok.inj (hdecode.symm.trans hdecode')
  exact Except.ok.inj (hread.symm.trans hread')

theorem read_of_reports {o : Output} {v : Json} (h : Reports o v) :
    read o = each pair (duplicates v) := by
  obtain ⟨bytes, cs, hfile, hdecode, hread⟩ := h
  simp only [read, hfile, hdecode, hread]
  rfl

theorem reports_of_read {o : Output} {fs : List Finding}
    (hfile : (o.files.lookup reportName).isSome = true) (h : read o = .ok fs) :
    ∃ v, Reports o v := by
  obtain ⟨bytes, hbytes⟩ := Option.isSome_iff_exists.mp hfile
  simp only [read, hbytes] at h
  cases hdecode : Text.decode bytes with
  | error e =>
    rw [hdecode] at h
    cases h
  | ok cs =>
    cases hread : Json.read (Text.unifyNewlines cs) with
    | error e =>
      simp only [hdecode, hread] at h
      cases e with
      | malformed => cases h
      | integerTooLong n => cases h
    | ok v => exact ⟨v, bytes, cs, hbytes, hdecode, hread⟩

/-- How long a clone is. -/
def size (item : Fields Empty) : String :=
  count item "lines" ++ " lines, " ++ count item "tokens" ++ " tokens"

/-- Where a finding is, as its partner's message has it. -/
def place (f : Finding) : String :=
  f.file ++ ":" ++ if f.line = 0 then "?" else integerText f.line

/-- A finding tells of the side of a clone that stands in a field, and names its partner. -/
structure Tells (item : Fields Empty) (name : String) (f partner : Finding) : Prop where
  file : f.file = fileName (item.get name).fields
  start : Jscpd.start (item.get name).fields = .ok (f.line, f.col)
  tag : f.tag = Tag.duplication.text
  rule : f.rule = "jscpd/" ++ text item ["format"] "unknown"
  severity : f.severity = .warning
  message : f.message = "Duplicated block (" ++ size item ++ "), also in " ++ place partner

/-- Two findings tell of the two sides of a clone. -/
def Mirrored (item : Fields Empty) (p : Finding × Finding) : Prop :=
  Tells item "firstFile" p.1 p.2 ∧ Tells item "secondFile" p.2 p.1

theorem start_of_side {rule size : String} {here there : Fields Empty} {f : Finding}
    (h : side rule size here there = .ok f) :
    f.file = fileName here ∧ Jscpd.start here = .ok (f.line, f.col) := by
  obtain ⟨⟨line, col⟩, hhere, h⟩ := bind_eq_ok.mp h
  obtain ⟨_, -, h⟩ := bind_eq_ok.mp h
  cases h
  exact ⟨rfl, hhere⟩

theorem side_eq_ok {item : Fields Empty} {name : String} {there : Fields Empty}
    {f partner : Finding} (hfile : partner.file = fileName there)
    (hstart : Jscpd.start there = .ok (partner.line, partner.col)) :
    side ("jscpd/" ++ text item ["format"] "unknown") (size item) (item.get name).fields there =
      .ok f ↔ Tells item name f partner := by
  constructor
  · intro h
    obtain ⟨⟨line, col⟩, hhere, h⟩ := bind_eq_ok.mp h
    rw [hstart] at h
    cases h
    exact ⟨rfl, hhere, rfl, rfl, rfl, by simp only [place, hfile, String.append_assoc]⟩
  · intro h
    obtain ⟨file, line, col, tag, rule, severity, message⟩ := f
    obtain ⟨rfl, hhere, rfl, rfl, rfl, rfl⟩ := h
    simp only [side, hhere, hstart, place, hfile, String.append_assoc]
    rfl

theorem pair_eq_ok {item : Fields Empty} {fs : List Finding} :
    pair item = .ok fs ↔ ∃ p, Mirrored item p ∧ fs = [p.1, p.2] := by
  constructor
  · intro h
    obtain ⟨x, hx, h⟩ := bind_eq_ok.mp h
    obtain ⟨y, hy, h⟩ := bind_eq_ok.mp h
    obtain ⟨hxfile, hxstart⟩ := start_of_side hx
    obtain ⟨hyfile, hystart⟩ := start_of_side hy
    cases h
    exact ⟨(x, y), ⟨(side_eq_ok hyfile hystart).mp hx, (side_eq_ok hxfile hxstart).mp hy⟩, rfl⟩
  · rintro ⟨⟨x, y⟩, ⟨hx, hy⟩, rfl⟩
    refine bind_eq_ok.mpr ⟨x, (side_eq_ok hy.file hy.start).mpr hx, ?_⟩
    exact bind_eq_ok.mpr ⟨y, (side_eq_ok hx.file hx.start).mpr hy, rfl⟩

/-- The same clone with its sides exchanged. -/
def Exchanged (item item' : Fields Empty) : Prop :=
  ∀ name, item'.get name = item.get (Equiv.swap "firstFile" "secondFile" name)

theorem Exchanged.other {item item' : Fields Empty} (h : Exchanged item item') {name : String}
    (hfirst : name ≠ "firstFile") (hsecond : name ≠ "secondFile") :
    item'.get name = item.get name := by
  rw [h name, Equiv.swap_apply_of_ne_of_ne hfirst hsecond]

theorem Exchanged.text {item item' : Fields Empty} (h : Exchanged item item') :
    Output.text item' ["format"] "unknown" = Output.text item ["format"] "unknown" := by
  rw [Output.text, text?, List.findSome?_cons, h.other (by decide) (by decide)]
  rfl

theorem Exchanged.size {item item' : Fields Empty} (h : Exchanged item item') :
    Jscpd.size item' = Jscpd.size item := by
  rw [Jscpd.size, count, count, h.other (by decide) (by decide), h.other (by decide) (by decide)]
  rfl

theorem Tells.exchange {item item' : Fields Empty} {name : String} {f partner : Finding}
    (h : Exchanged item item') (ht : Tells item name f partner) :
    Tells item' (Equiv.swap "firstFile" "secondFile" name) f partner := by
  have hside : item'.get (Equiv.swap "firstFile" "secondFile" name) = item.get name := by
    rw [h, Equiv.swap_apply_self]
  exact
    { file := by rw [hside, ht.file]
      start := by rw [hside, ht.start]
      tag := ht.tag
      rule := by rw [h.text, ht.rule]
      severity := ht.severity
      message := by rw [h.size, ht.message] }

theorem Mirrored.exchange {item item' : Fields Empty} {p : Finding × Finding}
    (h : Exchanged item item') (hp : Mirrored item p) : Mirrored item' p.swap := by
  have hfirst := hp.1.exchange h
  have hsecond := hp.2.exchange h
  rw [Equiv.swap_apply_left] at hfirst
  rw [Equiv.swap_apply_right] at hsecond
  exact ⟨hsecond, hfirst⟩

def both (p : Finding × Finding) : List Finding := [p.1, p.2]

/-- Two findings, the other way round if their clone is turned. -/
def turn (turned : Bool) (p : Finding × Finding) : Finding × Finding :=
  if turned then p.swap else p

/-- A clone with its sides exchanged, or as it is. -/
def Turned (turned : Bool) (item item' : Fields Empty) : Prop :=
  if turned then Exchanged item item' else item' = item

theorem Mirrored.turn {turned : Bool} {item item' : Fields Empty} {p : Finding × Finding}
    (h : Turned turned item item') (hp : Mirrored item p) : Mirrored item' (turn turned p) := by
  cases turned with
  | true => exact hp.exchange h
  | false =>
    cases h
    exact hp

theorem each_pair_eq_ok {items : List (Fields Empty)} {fs : List Finding} :
    each pair items = .ok fs ↔
      ∃ pairs, List.Forall₂ Mirrored items pairs ∧ fs = pairs.flatMap both := by
  induction items generalizing fs with
  | nil =>
    constructor
    · rintro ⟨⟩
      exact ⟨[], .nil, rfl⟩
    · rintro ⟨_, ⟨⟩, rfl⟩
      rfl
  | cons item items ih =>
    rw [each_cons_eq_ok]
    constructor
    · rintro ⟨first, rest, hfirst, hrest, rfl⟩
      obtain ⟨p, hp, rfl⟩ := pair_eq_ok.mp hfirst
      obtain ⟨pairs, hpairs, rfl⟩ := ih.mp hrest
      exact ⟨p :: pairs, .cons hp hpairs, rfl⟩
    · rintro ⟨_, hall, rfl⟩
      cases hall with
      | cons hp hpairs =>
        exact ⟨_, _, pair_eq_ok.mpr ⟨_, hp, rfl⟩, ih.mpr ⟨_, hpairs, rfl⟩, rfl⟩

theorem mirrored_turned {items items' : List (Fields Empty)} {pairs : List (Finding × Finding)}
    {turns : List Bool} (hpairs : List.Forall₂ Mirrored items pairs)
    (hlength : turns.length = items.length)
    (hturned : List.Forall₂ (fun x item' => Turned x.1 x.2 item') (turns.zip items) items') :
    List.Forall₂ Mirrored items' (List.zipWith turn turns pairs) := by
  induction hpairs generalizing turns items' with
  | nil =>
    rw [List.zip_nil_right] at hturned
    cases hturned
    simp
  | cons hp _ ih =>
    cases turns with
    | nil => cases hlength
    | cons turned turns =>
      cases hturned with
      | cons hfirst hrest =>
        exact .cons (hp.turn hfirst) (ih (Nat.succ.inj hlength) hrest)

/-- A report that is read tells of each clone twice, once from each side, and each time names the
other side. If some clones are turned, then so are their two findings, and nothing else changes. -/
theorem read_mirrored {o : Output} {fs : List Finding}
    (hfile : (o.files.lookup reportName).isSome = true)
    (hread : jscpd.read o = .ok (.findings fs)) :
    ∃ v pairs, Reports o v ∧ List.Forall₂ Mirrored (duplicates v) pairs ∧
      fs = pairs.flatMap both ∧
      ∀ o' v' turns, Reports o' v' → turns.length = (duplicates v).length →
        List.Forall₂ (fun x item' => Turned x.1 x.2 item') (turns.zip (duplicates v))
          (duplicates v') →
        jscpd.read o' = .ok (.findings ((List.zipWith turn turns pairs).flatMap both)) := by
  obtain ⟨_, hfs, heq⟩ := map_eq_ok.mp hread
  cases heq
  obtain ⟨v, hv⟩ := reports_of_read hfile hfs
  obtain ⟨pairs, hpairs, rfl⟩ := each_pair_eq_ok.mp (read_of_reports hv ▸ hfs)
  refine ⟨v, pairs, hv, hpairs, rfl, fun o' v' turns hv' hlength hturned => ?_⟩
  have hpairs' := each_pair_eq_ok.mpr ⟨_, mirrored_turned hpairs hlength hturned, rfl⟩
  exact map_eq_ok.mpr ⟨_, (read_of_reports hv').trans hpairs', rfl⟩

/-- A clone whose second side has no line, by the names of its sides. -/
def oneClone (first second : String) : Fields Empty :=
  [("lines", .int 6), (first, .record [("name", .text "a.py"), ("start", .int 3)]),
    (second, .record [("name", .text "b.py")])]

def oneCloneReport (first second : String) : Output where
  files := [(reportName, Text.encode ("\x7b\"duplicates\": [\x7b\"lines\": 6, \"" ++ first ++
    "\": \x7b\"name\": \"a.py\", \"start\": 3\x7d, \"" ++ second ++
    "\": \x7b\"name\": \"b.py\"\x7d\x7d]\x7d"))]

def cloneIn (file : String) (line : Int) (other : String) : Finding where
  file := file
  line := line
  tag := Tag.duplication.text
  rule := "jscpd/unknown"
  message := "Duplicated block (6 lines, 0 tokens), also in " ++ other

theorem exchanged_oneClone :
    Exchanged (oneClone "firstFile" "secondFile") (oneClone "secondFile" "firstFile") := by
  intro name
  by_cases hfirst : name = "firstFile"
  · subst hfirst
    rw [Equiv.swap_apply_left]
    rfl
  · by_cases hsecond : name = "secondFile"
    · subst hsecond
      rw [Equiv.swap_apply_right]
      rfl
    · rw [Equiv.swap_apply_of_ne_of_ne hfirst hsecond]
      simp [Fields.get, oneClone, List.lookup_cons, beq_eq_false_iff_ne.mpr hfirst,
        beq_eq_false_iff_ne.mpr hsecond]

theorem read_mirrored_oneClone :
    jscpd.read (oneCloneReport "firstFile" "secondFile") =
      .ok (.findings [cloneIn "a.py" 3 "b.py:?", cloneIn "b.py" 0 "a.py:3"]) ∧
    jscpd.read (oneCloneReport "secondFile" "firstFile") =
      .ok (.findings [cloneIn "b.py" 0 "a.py:3", cloneIn "a.py" 3 "b.py:?"]) := by
  have hread : jscpd.read (oneCloneReport "firstFile" "secondFile") =
    .ok (.findings [cloneIn "a.py" 3 "b.py:?", cloneIn "b.py" 0 "a.py:3"]) := by rfl
  have hfirst : Reports (oneCloneReport "firstFile" "secondFile")
    (.record [("duplicates", .list [.record (oneClone "firstFile" "secondFile")])]) :=
    ⟨_, _, rfl, rfl, rfl⟩
  have hsecond : Reports (oneCloneReport "secondFile" "firstFile")
    (.record [("duplicates", .list [.record (oneClone "secondFile" "firstFile")])]) :=
    ⟨_, _, rfl, rfl, rfl⟩
  obtain ⟨v, pairs, hv, -, hfs, hturn⟩ := read_mirrored rfl hread
  obtain rfl := hv.unique hfirst
  have hturned := hturn _ _ [true] hsecond rfl (.cons exchanged_oneClone .nil)
  refine ⟨hread, hturned.trans ?_⟩
  obtain _ | ⟨⟨x, y⟩, _ | ⟨p, pairs⟩⟩ := pairs
  · cases hfs
  · cases hfs
    rfl
  · cases hfs

end Analyzer.Jscpd
end CodeAudit
