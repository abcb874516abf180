import CodeAudit.Proofs.Files.Way
import CodeAudit.Proofs.Scan.Inventory
import CodeAudit.Proofs.Settings.Layers
namespace CodeAudit

/-- A path whose first name stands for somebody's home directory. -/
def Path.StartsAtHome (p : Path) : Prop :=
  p.anchor = .relative ∧ ∃ n, p.names.head? = some n ∧ n.toList.head? = some '~'

namespace Host

/-- What is scanned is what a path is settled to, unless it starts at a home directory. -/
theorem scannable_settled {h : Host} {files : FileTree} {p : Path} {root : Place}
    (hs : h.scannable files p = .ok root) (hhome : ¬ p.StartsAtHome) :
    files.settle (h.place p) = .ok root := by
  rw [scannable] at hs
  obtain ⟨q, hq, hs⟩ := bind_eq_ok.mp hs
  have hself : q = p := by
    unfold expand at hq
    split at hq
    · next n rest hanchor hnames =>
      split at hq
      · exact (Except.ok.inj hq).symm
      · next htilde =>
        exact absurd ⟨hanchor, n, by rw [hnames]; rfl, not_ne_iff.mp htilde⟩ hhome
    · exact (Except.ok.inj hq).symm
  subst hself
  split at hs
  · cases hs
  · next place hplace =>
    split at hs
    · cases hs
      exact hplace
    · cases hs

end Host

namespace Settings
open FileTree Toml

/-- The files with settings that are looked for in a directory. -/
def settingsFiles : List String := ["pyproject.toml", ".fast-cv.toml"]

/-- Where a file with settings is looked for. -/
def lookedFor (h : Host) (directory : Path) (name : String) : Place :=
  h.place (directory.child name)

theorem lookedFor_eq (h : Host) (directory : Path) {name : String} (hn : name ∈ settingsFiles) :
    lookedFor h directory name = h.place directory ++ [name] := by
  have hname : Path.ofText name = ⟨.relative, [name]⟩ := by
    simp only [settingsFiles, List.mem_cons, List.not_mem_nil, or_false] at hn
    rcases hn with rfl | rfl <;> decide
  unfold lookedFor Path.child Host.place
  rw [hname]
  cases ha : directory.anchor <;> simp [Path.join, ha]

theorem readTable_ok_iff {wording : Wording} {files : FileTree} {a b : Place}
    (hread : files.read a = files.read b) (p q : Path) (t : Table) :
    readTable wording files a p = .ok t ↔ readTable wording files b q = .ok t := by
  unfold readTable
  rw [hread]
  cases files.read b with
  | error e => simp
  | ok bytes =>
    dsimp only
    cases Text.decode bytes with
    | error e => rfl
    | ok cs =>
      dsimp only
      cases Toml.read cs with
      | ok t => rfl
      | error e => cases e <;> simp

/-- Whether the system says if a directory has a file with settings. -/
def Said (h : Host) (files : FileTree) (directory : Path) (name : String) : Prop :=
  ∃ b, files.isFile (directory.child name) (lookedFor h directory name) = .ok b

theorem said_of_isSome {h : Host} {files : FileTree} {directory : Path} {name : String}
    (hsome : (files.isFile (directory.child name) (lookedFor h directory name)).toOption.isSome) :
    Said h files directory name := by
  obtain ⟨b, hb⟩ := Option.isSome_iff_exists.mp hsome
  exact ⟨b, toOption_eq_some.mp hb⟩

theorem readTableIn_of_false {h : Host} {files : FileTree} {directory : Path} {name : String}
    (hfile : files.isFile (directory.child name) (lookedFor h directory name) = .ok false) :
    readTableIn h files directory name = .ok [] := by
  rw [readTableIn]
  exact bind_eq_ok.mpr ⟨false, hfile, rfl⟩

theorem find_of_resolve_error {files : FileTree} {place : Place} {e : SystemError}
    (h : files.resolve place = .error e) : files.find place = .error e := by
  rw [find, h]
  rfl

/-- A file is read alike from two paths that lead to the same place. -/
theorem readTableIn_ok_iff {h : Host} {files : FileTree} {a b : Path} {name : String}
    (hsame : files.SamePlace (lookedFor h a name) (lookedFor h b name))
    (ha : Said h files a name) (hb : Said h files b name) (t : Table) :
    readTableIn h files a name = .ok t ↔ readTableIn h files b name = .ok t := by
  obtain ⟨here, ha⟩ := ha
  obtain ⟨there, hb⟩ := hb
  cases hr : files.resolve (lookedFor h b name) with
  | ok place =>
    have hfind : files.find (lookedFor h a name) = files.find (lookedFor h b name) := by
      rw [find, find, (hsame place).mpr hr, hr]
    have hread : files.read (lookedFor h a name) = files.read (lookedFor h b name) := by
      rw [FileTree.read, FileTree.read, hfind]
    obtain rfl : here = there := isFile_eq_of_find hfind ha hb
    cases here with
    | false => rw [readTableIn_of_false ha, readTableIn_of_false hb]
    | true =>
      have hleft : readTableIn h files a name =
          readTable h.wording files (lookedFor h a name) (a.child name) := by
        rw [readTableIn]
        exact congrArg (· >>= _) ha
      have hright : readTableIn h files b name =
          readTable h.wording files (lookedFor h b name) (b.child name) := by
        rw [readTableIn]
        exact congrArg (· >>= _) hb
      rw [hleft, hright]
      exact readTable_ok_iff hread _ _ t
  | error e =>
    cases hl : files.resolve (lookedFor h a name) with
    | ok place => cases hr.symm.trans ((hsame place).mp hl)
    | error e' =>
      obtain rfl := isFile_of_error (find_of_resolve_error hl) ha
      obtain rfl := isFile_of_error (find_of_resolve_error hr) hb
      rw [readTableIn_of_false ha, readTableIn_of_false hb]

/-- Settings are loaded alike for two directories whose files with settings are the same. -/
theorem load_ok_iff {h : Host} {files : FileTree} {a b : Path}
    (hsame : ∀ name ∈ settingsFiles, files.SamePlace (lookedFor h a name) (lookedFor h b name))
    (ha : ∀ name ∈ settingsFiles, Said h files a name)
    (hb : ∀ name ∈ settingsFiles, Said h files b name) (overrides : Table) (s : Settings) :
    load h files a overrides = .ok s ↔ load h files b overrides = .ok s := by
  have honly (a b : Path)
      (hread : ∀ name ∈ settingsFiles, ∀ t,
        readTableIn h files a name = .ok t → readTableIn h files b name = .ok t)
      (hs : load h files a overrides = .ok s) : load h files b overrides = .ok s := by
    obtain ⟨found, hfound, -⟩ := bind_eq_ok.mp hs
    obtain ⟨project, hproject, hfound⟩ := bind_eq_ok.mp hfound
    obtain ⟨own, hown, -⟩ := bind_eq_ok.mp hfound
    have hproject' := hread _ (by simp [settingsFiles]) project hproject
    have hown' := hread _ (by simp [settingsFiles]) own hown
    rw [load_eq overrides hproject' hown', ← load_eq overrides hproject hown]
    exact hs
  have hread (name : String) (hn : name ∈ settingsFiles) :=
    readTableIn_ok_iff (hsame name hn) (ha name hn) (hb name hn)
  exact ⟨honly a b fun name hn t => (hread name hn t).mp,
    honly b a fun name hn t => (hread name hn t).mpr⟩

theorem load_of_no_files {h : Host} {files : FileTree} {directory : Path}
    (hnone : ∀ name ∈ settingsFiles,
      files.isFile (directory.child name) (lookedFor h directory name) = .ok false)
    (overrides : Table) :
    load h files directory overrides =
      match ofFields (layered overrides [] []) with
      | .ok s => .ok s
      | .error issues => .error
          (.invalidSettings issues (h.wording.settings (layered overrides [] []))) :=
  load_eq overrides (readTableIn_of_false (hnone _ (by simp [settingsFiles])))
    (readTableIn_of_false (hnone _ (by simp [settingsFiles])))

/-- An empty root directory has no files with settings. -/
theorem isFile_empty (h : Host) : ∀ name ∈ settingsFiles,
    FileTree.isFile (.directory []) (Path.child ⟨.root, []⟩ name) (lookedFor h ⟨.root, []⟩ name) =
      .ok false := by
  intro name hn
  rw [lookedFor_eq h _ hn]
  simp only [settingsFiles, List.mem_cons, List.not_mem_nil, or_false] at hn
  rcases hn with rfl | rfl <;> rfl

/-- The settings come from the directory that is scanned unless a way to one of the files there goes
back by a parent step from something that is no directory, or through too many links. For a
directory named from a home directory they are looked for in one named by a tilde below the working
directory, and where none is there, they are those of no file. -/
theorem load_of_scannable (h : Host) (files : FileTree) (p : Path) (root : Place)
    (hs : h.scannable files p = .ok root) :
    (¬ p.StartsAtHome → ∀ name ∈ settingsFiles,
      (files.SamePlace (lookedFor h p name) (root ++ [name]) ↔
        ∀ j there, Way files true root [name] j there → j ≤ maxLinks →
          ∃ i, Way files true [] (h.place p) i root ∧ i + j ≤ maxLinks)) ∧
    (p.StartsAtHome →
      (∀ name ∈ settingsFiles, lookedFor h p name = h.workingDir.names ++ p.names ++ [name]) ∧
      ∀ n, p.names.head? = some n →
        (∃ e, files.resolve (h.workingDir.names ++ [n]) = .error e ∧ e.isAbsence = true) →
        (∀ name ∈ settingsFiles, tooLong (p.child name) = false) →
        ∀ overrides, load h files p overrides = load h (.directory []) ⟨.root, []⟩ overrides) ∧
    ((∀ name ∈ settingsFiles, files.SamePlace (lookedFor h p name) (root ++ [name])) →
      (∀ name ∈ settingsFiles, Said h files p name ∧ Said h files ⟨.root, root⟩ name) →
      ∀ overrides s, load h files p overrides = .ok s ↔
        load h files ⟨.root, root⟩ overrides = .ok s) := by
  obtain ⟨entries, hd⟩ := Host.scannable_ok hs
  refine ⟨?_, ?_, ?_⟩
  · intro hhome name hn
    rw [lookedFor_eq h p hn]
    exact samePlace_below_iff (Host.scannable_settled hs hhome) hd [name]
  · intro hhome
    have hanchor := hhome.1
    have hplace (name : String) (hn : name ∈ settingsFiles) :
        lookedFor h p name = h.workingDir.names ++ p.names ++ [name] := by
      rw [lookedFor_eq h p hn, Host.place, Path.join, hanchor]
    refine ⟨hplace, fun n hhead hnone hshort overrides => ?_⟩
    obtain ⟨rest, hnames⟩ := List.head?_eq_some_iff.mp hhead
    obtain ⟨e, hresolve, he⟩ := hnone
    have hmissing : ∀ name ∈ settingsFiles,
        files.isFile (p.child name) (lookedFor h p name) = .ok false := by
      intro name hn
      have hfront : lookedFor h p name = (h.workingDir.names ++ [n]) ++ (rest ++ [name]) := by
        rw [hplace name hn, hnames]
        simp
      rw [hfront]
      exact isFile_absent (hshort name hn)
        (find_of_resolve_error (resolve_error_append hresolve _)) he
    rw [load_of_no_files hmissing, load_of_no_files (isFile_empty h)]
  · intro hsame hsaid
    refine load_ok_iff (fun name hn => ?_) (fun name hn => (hsaid name hn).1)
      fun name hn => (hsaid name hn).2
    have hroot : lookedFor h ⟨.root, root⟩ name = root ++ [name] := lookedFor_eq h _ hn
    rw [hroot]
    exact hsame name hn

/-- A home directory with a project that asks for something to be left out, and a directory with a
link into it. -/
def homeTree : FileTree :=
  .directory [
    ("home", .directory [("proj", .directory [
      ("app.py", .file [] false),
      (".fast-cv.toml", .file (Text.encode "jobs = 3\n") false)])]),
    ("repo", .directory [("alias", .link "../home/proj")])]

theorem load_of_scannable_home :
    let h := Host.sampleHost
    let p : Path := ⟨.relative, ["~", "proj"]⟩
    let q : Path := ⟨.relative, ["repo", "alias"]⟩
    h.scannable homeTree p = .ok ["home", "proj"] ∧
      h.scannable homeTree q = .ok ["home", "proj"] ∧
      ¬ homeTree.SamePlace (lookedFor h p ".fast-cv.toml") ["home", "proj", ".fast-cv.toml"] ∧
      load h homeTree p [] = .ok {} ∧ load h homeTree q [] = .ok { jobs := 3 } := by
  intro h p q
  have hp : h.scannable homeTree p = .ok ["home", "proj"] := by rfl
  have hq : h.scannable homeTree q = .ok ["home", "proj"] := by rfl
  obtain ⟨-, hhome, -⟩ := load_of_scannable h homeTree p _ hp
  obtain ⟨-, -, hlink⟩ := load_of_scannable h homeTree q _ hq
  obtain ⟨hplace, hload⟩ := hhome ⟨rfl, "~", rfl, by decide⟩
  refine ⟨hp, hq, ?_, ?_, ?_⟩
  · intro hsame
    have hthere := (hsame ["home", "proj", ".fast-cv.toml"]).mpr rfl
    rw [hplace _ (by simp [settingsFiles])] at hthere
    cases hthere
  · rw [hload "~" rfl ⟨.noEntry, rfl, rfl⟩ (by decide)]
    have hread : (load h (.directory []) ⟨.root, []⟩ []).toOption = some {} := by decide +kernel
    exact toOption_eq_some.mp hread
  · refine (hlink ?_ ?_ [] _).mpr ?_
    · simp only [settingsFiles, List.forall_mem_cons]
      exact ⟨fun there => Iff.rfl, fun there => Iff.rfl, by simp⟩
    · have hread : ∀ name ∈ settingsFiles,
          (homeTree.isFile (q.child name) (lookedFor h q name)).toOption.isSome ∧
            (homeTree.isFile (Path.child ⟨.root, ["home", "proj"]⟩ name)
              (lookedFor h ⟨.root, ["home", "proj"]⟩ name)).toOption.isSome := by
        decide +kernel
      intro name hn
      exact (hread name hn).imp said_of_isSome said_of_isSome
    · have hread : (load h homeTree ⟨.root, ["home", "proj"]⟩ []).toOption =
        some { jobs := 3 } := by decide +kernel
      exact toOption_eq_some.mp hread

end Settings
end CodeAudit
