import CodeAudit.Analyzer.Catalog
import CodeAudit.Proofs.Analyzer.Diagnostic
import CodeAudit.Proofs.Text.Blank
import CodeAudit.Proofs.Text.Numeral
namespace CodeAudit

/-- A finding as reports need it: lines are not negative, columns count from one, the tag is known
and the rule has a name. -/
structure Finding.WellFormed (f : Finding) : Prop where
  line : 0 ≤ f.line
  col : ∀ c, f.col = some c → 1 ≤ c
  tag : ∃ t : Tag, f.tag = t.text
  rule : f.rule ≠ ""

/-- Whatever comes of an answer has a property. -/
def Ensures {ε α : Type} (P : α → Prop) (x : Except ε α) : Prop := ∀ a, x = .ok a → P a

namespace Ensures
variable {ε α β : Type} {P : α → Prop} {Q : β → Prop}

theorem ok {a : α} (h : P a) : Ensures P (.ok a : Except ε α) := by
  intro b hb
  cases hb
  exact h

theorem error (e : ε) : Ensures P (.error e) := nofun

theorem bind {x : Except ε α} {f : α → Except ε β} (hx : Ensures P x)
    (hf : ∀ a, P a → Ensures Q (f a)) : Ensures Q (x >>= f) := by
  cases x with
  | error e => exact error e
  | ok a => exact hf a (hx a rfl)

/-- Whatever the first step comes to. -/
theorem after {x : Except ε α} {f : α → Except ε β} (hf : ∀ a, Ensures Q (f a)) :
    Ensures Q (x >>= f) := by
  cases x with
  | error e => exact error e
  | ok a => exact hf a

theorem map {x : Except ε α} {f : α → β} (hx : Ensures P x) (hf : ∀ a, P a → Q (f a)) :
    Ensures Q (x.map f) := by
  cases x with
  | error e => exact error e
  | ok a => exact ok (hf a (hx a rfl))

theorem ite {c : Prop} [Decidable c] {x y : Except ε α} (hx : Ensures P x) (hy : Ensures P y) :
    Ensures P (if c then x else y) := by
  split
  · exact hx
  · exact hy

theorem none : Ensures (∀ b ∈ ·, Q b) (.ok [] : Except ε (List β)) := ok (by simp)

theorem one {b : β} (h : Q b) : Ensures (∀ b ∈ ·, Q b) (.ok [b] : Except ε (List β)) :=
  ok (List.forall_mem_singleton.mpr h)

end Ensures

namespace Output

/-- Columns, and whatever else may be missing, count from one. -/
def Counted (n : Option Int) : Prop := ∀ c, n = some c → 1 ≤ c

theorem counted_none : Counted none := nofun

theorem counted_above (n : Int) : Counted (above n) := by
  intro c hc
  rw [above] at hc
  split at hc
  · next hpos =>
    cases hc
    exact hpos
  · cases hc

theorem Counted.getD {n : Option Int} (h : Counted n) : 0 ≤ n.getD 0 := by
  cases n with
  | none => exact Int.le_refl 0
  | some c => exact Int.le_trans (by decide) (h c rfl)

theorem positive?_counted (v : Json) : Ensures Counted (positive? v) := by
  cases v with
  | int n => exact .ok (counted_above n)
  | text s => exact .ite (.map (P := fun _ => True) (fun _ _ => trivial)
      fun n _ => counted_above n) (.ok counted_none)
  | other e => exact e.elim
  | _ => exact .ok counted_none

theorem number?_counted (fields : Fields Empty) (names : List String) :
    Ensures Counted (number? fields names) := by
  induction names with
  | nil => exact .ok counted_none
  | cons name names ih =>
    rw [number?]
    split
    · exact ih
    · exact positive?_counted _

/-- The first positive integer of two, with what goes on after either. -/
theorem counted_or {α : Type} {Q : α → Prop} {v : Json} {rest : Except Fault (Option Int)}
    {next : Option Int → Except Fault α} (hrest : Ensures Counted rest)
    (hnext : ∀ n, Counted n → Ensures Q (next n)) :
    Ensures Q
      (positive? v >>= fun n => if n.isSome then pure n >>= next else rest >>= next) :=
  (positive?_counted v).bind fun n hn => .ite (hnext n hn) (hrest.bind hnext)

theorem line_nonneg (fields : Fields Empty) (names : List String) :
    Ensures (0 ≤ ·) (line fields names) :=
  (number?_counted fields names).map fun _ h => h.getD

theorem digits_nonneg {cs : List Char} (h : Diagnostic.Number cs) :
    Ensures (0 ≤ ·) (digits cs) := by
  rcases Text.readInteger_of_decimals h.1 h.2 with ⟨-, n, hn⟩ | ⟨-, hn⟩
  · rw [digits, hn]
    exact .ok (Int.natCast_nonneg n)
  · rw [digits, hn]
    exact .error _

section
variable {α β : Type} {P : β → Prop} {f : α → Except Fault (List β)}

theorem each_forall {xs : List α} (h : ∀ x, Ensures (∀ y ∈ ·, P y) (f x)) :
    Ensures (∀ y ∈ ·, P y) (each f xs) := by
  induction xs with
  | nil => exact .none
  | cons x xs ih =>
    rw [each]
    cases hx : f x with
    | error e => exact .error e
    | ok ys => exact ih.map fun zs hzs => List.forall_mem_append.mpr ⟨h x ys hx, hzs⟩

theorem silent_forall {c : Prop} [Decidable c] (m : String) :
    Ensures (∀ y ∈ ·, P y) (if c then fault m else pure []) :=
  .ite (.error _) .none

theorem records_forall {f : Fields Empty → Except Fault (List β)}
    (h : ∀ item, Ensures (∀ y ∈ ·, P y) (f item)) (stdout : String) :
    Ensures (∀ y ∈ ·, P y) (records stdout >>= each f) :=
  .after fun _ => each_forall h

end

theorem phrase?_ne_empty {v : Json} {s : String} (h : phrase? v = some s) : s ≠ "" := by
  cases v with
  | text t =>
    rw [phrase?] at h
    split at h
    · cases h
    · next hblank =>
      cases h
      exact Text.strip_ne_empty (Bool.eq_false_iff.mpr hblank)
  | _ => cases h

theorem phrase?_getD_ne_empty (v : Json) {fallback : String} (h : fallback ≠ "") :
    (phrase? v).getD fallback ≠ "" := by
  cases hphrase : phrase? v with
  | none => exact h
  | some s => exact phrase?_ne_empty hphrase

theorem text_ne_empty (fields : Fields Empty) (names : List String) {fallback : String}
    (h : fallback ≠ "") : text fields names fallback ≠ "" := by
  rw [text]
  cases htext : text? fields names with
  | none => exact h
  | some s =>
    obtain ⟨_, _, hphrase⟩ := List.exists_of_findSome?_eq_some htext
    exact phrase?_ne_empty hphrase

end Output

namespace Analyzer
open Output

def Sound (x : Except Fault (List Finding)) : Prop := Ensures (∀ f ∈ ·, f.WellFormed) x

/-- A finding in a line and maybe a column that fields give. -/
theorem sound_place (fields : Fields Empty) (names : List String) (column : String)
    {f : Int → Option Int → Finding}
    (h : ∀ n c, 0 ≤ n → Counted c → (f n c).WellFormed) :
    Sound (do
      let n ← line fields names
      let c ← positive? (fields.get column)
      return [f n c]) := by
  refine (line_nonneg fields names).bind fun n hn => ?_
  refine (positive?_counted _).bind fun c hc => ?_
  exact .one (h n c hn hc)

theorem Ruff.sound (item : Fields Empty) : Sound (finding item) :=
  sound_place _ _ _ fun _ _ hline hcol =>
    ⟨hline, hcol, ⟨_, rfl⟩, phrase?_getD_ne_empty _ (by decide)⟩

theorem Ruff.read_sound (o : Output) : Sound (read o) :=
  .ite (silent_forall _) (.after fun _ => each_forall sound)

theorem Mypy.sound (item : Fields Empty) : Sound (finding item) :=
  .ite .none (sound_place _ _ _ fun _ _ hline hcol =>
    ⟨hline, hcol, ⟨.typeError, rfl⟩, text_ne_empty _ _ (by decide)⟩)

theorem Mypy.read_sound (o : Output) : Sound (read o) :=
  .ite (silent_forall _) (records_forall sound _)

theorem Vulture.sound (cs : List Char) : Sound (finding cs) := by
  rw [finding]
  cases hreport : report? cs with
  | none => exact .none
  | some report =>
    refine (digits_nonneg (line_of_report hreport)).bind fun line hline => ?_
    exact .one ⟨hline, counted_none, ⟨.deadCode, rfl⟩, by simp⟩

theorem Vulture.read_sound (o : Output) : Sound (read o) := .ite (.error _) (each_forall sound)

theorem Eslint.sound (file : String) (item : Fields Empty) : Sound (finding file item) :=
  .ite .none (sound_place _ _ _ fun _ _ hline hcol =>
    ⟨hline, hcol, ⟨_, rfl⟩, phrase?_getD_ne_empty _ (by decide)⟩)

theorem Eslint.read_sound (o : Output) : Sound (read o) :=
  .ite (silent_forall _) (.after fun _ => each_forall fun _ => each_forall (sound _))

theorem Tsc.sound (cs : List Char) : Sound (finding cs) := by
  rw [finding]
  cases hreport : report? (Text.trim cs) with
  | none => exact .none
  | some report =>
    obtain ⟨hline, hcol, hcode⟩ := of_report hreport
    have hrule : String.ofList report.code ≠ "" := by simpa using hcode
    refine (digits_nonneg hline).bind fun line hline => ?_
    refine (digits_nonneg hcol).bind fun col _ => ?_
    exact .one ⟨hline, counted_above _, ⟨.typeError, rfl⟩, hrule⟩

theorem Tsc.read_sound (o : Output) : Sound (read o) := .ite (.error _) (each_forall sound)

theorem Stylelint.sound (file : String) (item : Fields Empty) : Sound (finding file item) :=
  sound_place _ _ _ fun _ _ hline hcol =>
    ⟨hline, hcol, ⟨_, rfl⟩, phrase?_getD_ne_empty _ (by decide)⟩

theorem Stylelint.read_sound (o : Output) : Sound (read o) :=
  .ite (silent_forall _) (.after fun _ => each_forall fun _ => each_forall (sound _))

theorem Sqlfluff.sound (file : String) (item : Fields Empty) : Sound (finding file item) := by
  refine (line_nonneg _ _).bind fun line hline => ?_
  refine (number?_counted _ _).bind fun col hcol => ?_
  exact .one ⟨hline, hcol, ⟨_, rfl⟩, phrase?_getD_ne_empty _ (by decide)⟩

theorem Sqlfluff.read_sound (o : Output) : Sound (read o) :=
  .ite (silent_forall _) (.after fun _ => each_forall fun _ => each_forall (sound _))

theorem Semgrep.sound (item : Fields Empty) : Sound (finding item) := by
  refine (line_nonneg _ _).bind fun line hline => ?_
  refine (positive?_counted _).bind fun col hcol => ?_
  refine .after fun tag => ?_
  exact .one ⟨hline, hcol, ⟨tag, rfl⟩, text_ne_empty _ _ (by decide)⟩

theorem Semgrep.read_sound (o : Output) : Sound (read o) :=
  .ite (silent_forall _) (.after fun _ => each_forall sound)

theorem Bearer.sound (item : Fields Empty) (severity : Severity) (location : Fields Empty) :
    Sound (finding item severity location) := by
  refine counted_or (number?_counted _ _) fun line hline => ?_
  refine counted_or (number?_counted _ _) fun col hcol => ?_
  exact .one ⟨hline.getD, hcol, ⟨.privacy, rfl⟩, text_ne_empty _ _ (by decide)⟩

theorem Bearer.read_sound (o : Output) : Sound (read o) :=
  .ite (silent_forall _) (.after fun _ => each_forall fun item =>
    .after fun _ => each_forall (sound item _))

theorem GolangciLint.sound (item : Fields Empty) : Sound (finding item) :=
  sound_place _ _ _ fun _ _ hline hcol =>
    ⟨hline, hcol, ⟨_, rfl⟩, phrase?_getD_ne_empty _ (by decide)⟩

theorem GolangciLint.read_sound (o : Output) : Sound (read o) :=
  .ite (silent_forall _) (.after fun _ => each_forall sound)

theorem Clippy.sound (item : Fields Empty) : Sound (finding item) := by
  apply Ensures.ite
  · exact .none
  · cases anchor? ((item.get "message").fields.get "spans").records with
    | none => exact .none
    | some span => exact sound_place span _ _ fun _ _ hline hcol =>
        ⟨hline, hcol, ⟨_, rfl⟩, phrase?_getD_ne_empty _ (by decide)⟩

theorem Clippy.read_sound (o : Output) : Sound (read o) := .ite (.error _) (records_forall sound _)

namespace Trivy

theorem sound_vulnerability (target : String) (item : Fields Empty) :
    Sound (vulnerability target item) := by
  refine .after fun severity => ?_
  exact .one ⟨Int.le_refl 0, counted_none, ⟨.dependency, rfl⟩, text_ne_empty _ _ (by decide)⟩

theorem sound_misconfiguration (target : String) (item : Fields Empty) :
    Sound (misconfiguration target item) := by
  refine (line_nonneg _ _).bind fun line hline => ?_
  refine .after fun severity => ?_
  exact .one ⟨hline, counted_none, ⟨.infra, rfl⟩, text_ne_empty _ _ (by decide)⟩

theorem sound_secret (target : String) (item : Fields Empty) : Sound (secret target item) := by
  refine (line_nonneg _ _).bind fun line hline => ?_
  exact .one ⟨hline, counted_none, ⟨.secret, rfl⟩, text_ne_empty _ _ (by decide)⟩

theorem sound_license (target : String) (item : Fields Empty) : Sound (license target item) := by
  refine .after fun severity => ?_
  exact .one ⟨Int.le_refl 0, counted_none, ⟨.license, rfl⟩, by simp⟩

theorem sound (licenses : Bool) (entry : Fields Empty) : Sound (entryFindings licenses entry) := by
  refine (each_forall (sound_vulnerability _)).bind fun vulnerabilities hvulnerabilities => ?_
  refine (each_forall (sound_misconfiguration _)).bind
    fun misconfigurations hmisconfigurations => ?_
  refine (each_forall (sound_secret _)).bind fun secrets hsecrets => ?_
  have hfound : ∀ f ∈ vulnerabilities ++ misconfigurations ++ secrets, f.WellFormed :=
    List.forall_mem_append.mpr
      ⟨List.forall_mem_append.mpr ⟨hvulnerabilities, hmisconfigurations⟩, hsecrets⟩
  apply Ensures.ite
  · refine (each_forall (sound_license _)).bind fun licensed hlicensed => ?_
    exact .ok (List.forall_mem_append.mpr ⟨hfound, hlicensed⟩)
  · exact .ok hfound

theorem read_sound (o : Output) : Sound (read o) :=
  .ite (silent_forall _) (.after fun _ => each_forall (sound _))

end Trivy

namespace Jscpd

theorem start_counted (side : Fields Empty) :
    Ensures (fun place => 0 ≤ place.1 ∧ Counted place.2) (start side) := by
  refine counted_or (positive?_counted _) fun line hline => ?_
  refine (positive?_counted _).bind fun col hcol => ?_
  exact .ok ⟨hline.getD, hcol⟩

theorem sound_side (rule size : String) (here there : Fields Empty) (h : rule ≠ "") :
    Ensures (·.WellFormed) (side rule size here there) := by
  refine (start_counted here).bind fun place hplace => ?_
  refine .after fun other => ?_
  exact .ok ⟨hplace.1, hplace.2, ⟨.duplication, rfl⟩, h⟩

theorem sound (item : Fields Empty) : Sound (pair item) := by
  have hrule : "jscpd/" ++ text item ["format"] "unknown" ≠ "" := by simp
  refine (sound_side _ _ _ _ hrule).bind fun first hfirst => ?_
  refine (sound_side _ _ _ _ hrule).bind fun second hsecond => ?_
  exact .ok (by simp [hfirst, hsecond])

theorem read_sound (o : Output) : Sound (read o) := by
  rw [read]
  split
  · exact silent_forall _
  · split
    · exact .error _
    · split
      · next e _ => cases e <;> exact .error _
      · exact each_forall sound

end Jscpd

namespace Knip

theorem sound_export (item : Fields Empty) : Sound (unusedExport item) :=
  sound_place _ _ _ fun _ _ hline hcol => ⟨hline, hcol, ⟨.deadCode, rfl⟩, by simp⟩

theorem unusedFile_wellFormed (v : Json) : (unusedFile v).WellFormed :=
  ⟨Int.le_refl 0, counted_none, ⟨.deadCode, rfl⟩, by simp [unusedFile]⟩

theorem dependency_wellFormed (rule label : String) (v : Json) (h : rule ≠ "") :
    (dependency rule label v).WellFormed :=
  ⟨Int.le_refl 0, counted_none, ⟨.deadCode, rfl⟩, h⟩

theorem read_sound (o : Output) : Sound (read o) := by
  refine .ite (.ite .none (silent_forall _)) (.after fun _ => .after fun files => ?_)
  refine (each_forall sound_export).bind fun exports hexports => ?_
  refine .after fun unused => .after fun unlisted => .ok ?_
  simp only [List.forall_mem_append, List.forall_mem_map]
  exact ⟨⟨⟨fun v _ => unusedFile_wellFormed v, hexports⟩,
    fun v _ => dependency_wellFormed _ _ v (by decide)⟩,
    fun v _ => dependency_wellFormed _ _ v (by decide)⟩

end Knip

theorem Typos.sound (item : Fields Empty) : Sound (finding item) := by
  rw [finding]
  cases phrase? (item.get "typo") with
  | none => exact .none
  | some typo =>
    refine .after fun corrections => ?_
    refine (line_nonneg _ _).bind fun line hline => ?_
    exact .one ⟨hline, counted_none, ⟨.typo, rfl⟩, by simp⟩

theorem Typos.read_sound (o : Output) : Sound (read o) :=
  .ite (silent_forall _) (records_forall sound _)

theorem findings_sound {read : Output → Except Fault (List Finding)} {o : Output}
    (h : Sound (read o)) :
    Ensures (fun reading => ∃ fs, reading = .findings fs ∧ ∀ f ∈ fs, f.WellFormed)
      (findings read o) :=
  h.map fun fs hfs => ⟨fs, rfl, hfs⟩

theorem builtin_sound (o : Output) : ∀ a ∈ Registry.builtin.analyzers,
    Ensures (fun reading => ∃ fs, reading = .findings fs ∧ ∀ f ∈ fs, f.WellFormed) (a.read o) := by
  rw [Registry.builtin]
  simp only [List.forall_mem_cons]
  exact ⟨findings_sound (Ruff.read_sound o), findings_sound (Mypy.read_sound o),
    findings_sound (Vulture.read_sound o), findings_sound (Eslint.read_sound o),
    findings_sound (Tsc.read_sound o), findings_sound (Stylelint.read_sound o),
    findings_sound (Semgrep.read_sound o), findings_sound (Bearer.read_sound o),
    findings_sound (GolangciLint.read_sound o), findings_sound (Clippy.read_sound o),
    findings_sound (Sqlfluff.read_sound o), findings_sound (Trivy.read_sound o),
    findings_sound (Jscpd.read_sound o), findings_sound (Knip.read_sound o),
    findings_sound (Typos.read_sound o), nofun⟩

end Analyzer
end CodeAudit
