import CodeAudit.Proofs.Files.WellFormed
import CodeAudit.Proofs.Steps
namespace CodeAudit.FileTree

theorem utf8ByteSize_text (names : List String) :
    (Path.mk .root names).text.utf8ByteSize = 1 + ("/".intercalate names).utf8ByteSize :=
  String.utf8ByteSize_append

theorem utf8ByteSize_intercalate_append (a b : List String) :
    ("/".intercalate a).utf8ByteSize ≤ ("/".intercalate (a ++ b)).utf8ByteSize := by
  rcases Decidable.em (a = []) with rfl | ha
  · exact Nat.zero_le _
  rcases Decidable.em (b = []) with rfl | hb
  · exact Nat.le_of_eq (by rw [List.append_nil])
  rw [String.intercalate_append_of_ne_nil ha hb, String.utf8ByteSize_append,
    String.utf8ByteSize_append, Nat.add_assoc]
  exact Nat.le_add_right _ _

/-- Where a path is not too long, none above it is. -/
theorem tooLong_of_prefix {above place : Place} (hp : above <+: place)
    (h : tooLong ⟨.root, place⟩ = false) : tooLong ⟨.root, above⟩ = false := by
  obtain ⟨rest, rfl⟩ := hp
  have hle := utf8ByteSize_intercalate_append above rest
  rw [tooLong, decide_eq_false_iff_not, utf8ByteSize_text] at h ⊢
  omega

variable {files t : FileTree} {path : Path} {place : Place}

theorem look?_of_ok (hshort : tooLong path = false) (h : files.find place = .ok t) :
    files.look? path place = .ok (some t) := by
  rw [look?, hshort, h]
  rfl

theorem look?_of_absence {e : SystemError} (hshort : tooLong path = false)
    (h : files.find place = .error e) (he : e.isAbsence = true) :
    files.look? path place = .ok none := by
  rw [look?, hshort, h]
  exact if_pos he

/-- Where it can be said what a path leads to, it is not too long, and leads to what is found. -/
theorem look?_eq_ok {found : Option FileTree} (h : files.look? path place = .ok found) :
    tooLong path = false ∧ ((∃ t, files.find place = .ok t ∧ found = some t) ∨
      ∃ e, files.find place = .error e ∧ e.isAbsence = true ∧ found = none) := by
  rw [look?] at h
  cases hlong : tooLong path with
  | true =>
    rw [hlong] at h
    cases h
  | false =>
    rw [hlong] at h
    refine ⟨rfl, ?_⟩
    cases hfind : files.find place with
    | ok t =>
      rw [hfind] at h
      exact .inl ⟨t, rfl, (Except.ok.inj h).symm⟩
    | error e =>
      simp only [hfind, Bool.false_eq_true, if_false] at h
      split at h
      · next he => exact .inr ⟨e, rfl, he, (Except.ok.inj h).symm⟩
      · cases h

theorem isFile_file {content : Text.Bytes} {executable : Bool} (hshort : tooLong path = false)
    (h : files.find place = .ok (.file content executable)) :
    files.isFile path place = .ok true := by
  rw [isFile, look?_of_ok hshort h]
  rfl

theorem isFile_absent {e : SystemError} (hshort : tooLong path = false)
    (h : files.find place = .error e) (he : e.isAbsence = true) :
    files.isFile path place = .ok false := by
  rw [isFile, look?_of_absence hshort h he]
  rfl

/-- What leads nowhere is not said to be a file. -/
theorem isFile_of_error {e : SystemError} {b : Bool} (h : files.find place = .error e)
    (hb : files.isFile path place = .ok b) : b = false := by
  obtain ⟨found, hlook, rfl⟩ := map_eq_ok.mp hb
  obtain ⟨-, ⟨t, ht, -⟩ | ⟨-, -, -, rfl⟩⟩ := look?_eq_ok hlook
  · rw [h] at ht
    cases ht
  · rfl

/-- Of what leads to the same thing the same is said. -/
theorem isFile_eq_of_find {other : Path} {there : Place} {a b : Bool}
    (h : files.find place = files.find there) (ha : files.isFile path place = .ok a)
    (hb : files.isFile other there = .ok b) : a = b := by
  obtain ⟨found, hlook, rfl⟩ := map_eq_ok.mp ha
  obtain ⟨found', hlook', rfl⟩ := map_eq_ok.mp hb
  have hsame : found = found' := by
    obtain ⟨-, ⟨t, ht, rfl⟩ | ⟨e, he, -, rfl⟩⟩ := look?_eq_ok hlook <;>
      obtain ⟨-, ⟨t', ht', rfl⟩ | ⟨e', he', -, rfl⟩⟩ := look?_eq_ok hlook' <;> simp_all
  rw [hsame]

/-- What is said to be a file is found, and is no directory. -/
theorem find_of_isFile (h : files.isFile path place = .ok true) :
    tooLong path = false ∧ ∃ t, files.find place = .ok t ∧ t.isDirectory = false := by
  obtain ⟨found, hlook, hfile⟩ := map_eq_ok.mp h
  obtain ⟨hshort, ⟨t, ht, rfl⟩ | ⟨-, -, -, rfl⟩⟩ := look?_eq_ok hlook
  · refine ⟨hshort, t, ht, ?_⟩
    cases t with
    | directory entries => cases hfile
    | closed names => cases hfile
    | _ => rfl
  · cases hfile

/-- Where it cannot be said whether a path leads to a file, the system has refused to tell what it
leads to. -/
theorem isFile_error {f : Fault} (h : files.isFile path place = .error f) :
    ∃ e, e.isAbsence = false ∧ f = .system e (Text.quoted path.text) := by
  rw [isFile, map_eq_error, look?] at h
  generalize (if tooLong path = true then _ else _ : Except SystemError FileTree) = answer at h
  cases answer with
  | ok t => cases h
  | error e =>
    cases he : e.isAbsence with
    | true => simp [he] at h
    | false => exact ⟨e, he, by simpa [he, eq_comm] using h⟩

end CodeAudit.FileTree
