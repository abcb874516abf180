import CodeAudit.CommandLine.Program
import CodeAudit.Proofs.Files.Look
import CodeAudit.Proofs.Settings.Layers
namespace CodeAudit
namespace Settings
open Toml

/-- How settings are refused: the faults that a user is to be told of in a line. -/
inductive Refusal : Fault → Prop
  | malformed (path cause : String) : Refusal (.malformedSettings path cause)
  | unreadable (path cause : String) : Refusal (.unreadableSettings path cause)
  | invalid (issues : List Schema.Issue) (cause : String) : Refusal (.invalidSettings issues cause)

/-- What keeps the content of a file from being read before it could be refused: bytes that are not
UTF-8, or a number of more digits than numbers are read with. -/
def garbled (content : Text.Bytes) : Option Fault :=
  match Text.decode content with
  | .error e => some (.undecodable e)
  | .ok cs =>
    match Toml.read cs with
    | .error (.integerTooLong n) => some (.numberTooLong n)
    | _ => none

section
variable (h : Host) (files : FileTree) (directory : Path)

/-- What keeps a file with settings from being refused: it cannot be said whether there is such a
file, or its content is garbled. -/
def escapeIn (name : String) : Option Fault :=
  let path := directory.child name
  match files.isFile path (h.place path) with
  | .error f => some f
  | .ok false => none
  | .ok true => (files.read (h.place path)).toOption.bind garbled

/-- The fault of the first of the two files with settings that keeps them from being refused. The
second is not looked at if the first is refused. -/
def escape : Option Fault :=
  match escapeIn h files directory "pyproject.toml",
    readTableIn h files directory "pyproject.toml" with
  | some f, _ => some f
  | none, .ok _ => escapeIn h files directory ".fast-cv.toml"
  | none, .error _ => none

end

theorem isUserFault_of_refusal {f : Fault} (h : Refusal f) : Host.isUserFault f = true := by
  cases h <;> rfl

/-- All that reading a file can come to. -/
theorem readTable_cases (wording : Wording) (files : FileTree) (place : Place) (path : Path) :
    (∃ f, (files.read place).toOption.bind garbled = some f ∧ Host.isUserFault f = false ∧
      readTable wording files place path = .error f) ∨
    (files.read place).toOption.bind garbled = none ∧
      ((∃ t, readTable wording files place path = .ok t) ∨
        ∃ f, Refusal f ∧ readTable wording files place path = .error f) := by
  unfold readTable
  cases files.read place with
  | error e => exact .inr ⟨rfl, .inr ⟨_, .unreadable _ _, rfl⟩⟩
  | ok content =>
    have hbind : (Except.ok content : Except SystemError Text.Bytes).toOption.bind garbled =
        garbled content := rfl
    rw [hbind, garbled]
    dsimp only
    cases Text.decode content with
    | error e => exact .inl ⟨_, rfl, rfl, rfl⟩
    | ok cs =>
      dsimp only
      cases Toml.read cs with
      | ok t => exact .inr ⟨rfl, .inl ⟨t, rfl⟩⟩
      | error e =>
        cases e with
        | malformed => exact .inr ⟨rfl, .inr ⟨_, .malformed _ _, rfl⟩⟩
        | integerTooLong n => exact .inl ⟨_, rfl, rfl, rfl⟩

theorem readTableIn_cases (h : Host) (files : FileTree) (directory : Path) (name : String) :
    (∃ f, escapeIn h files directory name = some f ∧ Host.isUserFault f = false ∧
      readTableIn h files directory name = .error f) ∨
    escapeIn h files directory name = none ∧
      ((∃ t, readTableIn h files directory name = .ok t) ∨
        ∃ f, Refusal f ∧ readTableIn h files directory name = .error f) := by
  unfold escapeIn readTableIn
  dsimp only
  cases hfile : files.isFile (directory.child name) (h.place (directory.child name)) with
  | error f =>
    obtain ⟨e, -, rfl⟩ := FileTree.isFile_error hfile
    exact .inl ⟨_, rfl, rfl, rfl⟩
  | ok there =>
    cases there with
    | false => exact .inr ⟨rfl, .inl ⟨[], rfl⟩⟩
    | true =>
      exact readTable_cases h.wording files (h.place (directory.child name)) (directory.child name)

/-- All that loading settings can come to. -/
theorem load_cases (h : Host) (files : FileTree) (directory : Path) (overrides : Table) :
    (∃ f, escape h files directory = some f ∧ Host.isUserFault f = false ∧
      load h files directory overrides = .error f) ∨
    escape h files directory = none ∧ ((∃ s, load h files directory overrides = .ok s) ∨
      ∃ f, Refusal f ∧ load h files directory overrides = .error f) := by
  obtain ⟨f, hf, hescape, hread⟩ | ⟨hnone, hread⟩ :=
    readTableIn_cases h files directory "pyproject.toml"
  · exact .inl ⟨f, by rw [escape, hf], hescape, by rw [load, inDirectory, hread]; rfl⟩
  obtain ⟨project, hproject⟩ | ⟨f, hrefusal, hrefused⟩ := hread
  · have hlater : escape h files directory = escapeIn h files directory ".fast-cv.toml" := by
      rw [escape, hnone, hproject]
    rw [hlater]
    obtain ⟨f, hf, hescape, hread⟩ | ⟨hnone, hread⟩ :=
      readTableIn_cases h files directory ".fast-cv.toml"
    · exact .inl ⟨f, hf, hescape, by rw [load, inDirectory, hproject, hread]; rfl⟩
    refine .inr ⟨hnone, ?_⟩
    obtain ⟨own, hown⟩ | ⟨f, hrefusal, hrefused⟩ := hread
    · rw [load_eq overrides hproject hown]
      cases ofFields (layered overrides own project) with
      | ok s => exact .inl ⟨s, rfl⟩
      | error issues => exact .inr ⟨_, .invalid issues _, rfl⟩
    · exact .inr ⟨f, hrefusal, by rw [load, inDirectory, hproject, hrefused]; rfl⟩
  · refine .inr ⟨by rw [escape, hnone, hrefused], .inr ⟨f, hrefusal, ?_⟩⟩
    rw [load, inDirectory, hrefused]
    rfl

theorem isUserFault_of_load {h : Host} {files : FileTree} {directory : Path} {overrides : Table}
    {f : Fault} (hload : load h files directory overrides = .error f) :
    Host.isUserFault f = (escape h files directory).isNone := by
  obtain ⟨g, hg, huser, hfault⟩ | ⟨hnone, ⟨s, hs⟩ | ⟨g, hrefusal, hfault⟩⟩ :=
    load_cases h files directory overrides
  · rw [hload] at hfault
    cases hfault
    rw [huser, hg]
    rfl
  · rw [hload] at hs
    cases hs
  · rw [hload] at hfault
    cases hfault
    rw [isUserFault_of_refusal hrefusal, hnone]
    rfl

end Settings

/-- A scan whose settings cannot be loaded leaves the world as it was. -/
theorem Host.scanCommand_on_error (h : Host) (a : ScanArguments) (w : World) {f : Fault}
    (hload : Settings.load h w.files (Path.ofText a.directory) a.overrides = .error f) :
    (h.scanCommand a).on w =
      (.ok (if isUserFault f then { code := 2, stderr := statusLine .fail a.emoji f.message }
        else { code := 1, stderr := f.message ++ "\n" }), w) := by
  have hscan : (h.scanWith a).on w = (.error f, w) := by
    have hloaded : (Act.ofExcept
        (Settings.load h w.files (Path.ofText a.directory) a.overrides)).on w = (.error f, w) := by
      rw [Act.on_ofExcept, hload]
    rw [scanWith, Act.on_bind_ok (Act.on_files w), Act.on_bind_error hloaded]
  have hattempt : (Act.attempt (h.scanWith a)).on w = (.ok (.error f), w) := by
    rw [Act.on_attempt, hscan]
  rw [scanCommand, Act.on_bind_ok (Act.on_files w), Act.on_bind_ok hattempt]
  dsimp only
  split <;> rfl

namespace Settings
open Toml

/-- Settings are loaded or refused, and a refusal is told in a line, unless of one of the files it
cannot be said whether it is there, or it cannot be read as text with numbers: then that fault ends
the program as it is. -/
theorem load_refused (h : Host) :
    (∀ (files : FileTree) (directory : Path) (overrides : Table),
      (((∃ s, load h files directory overrides = .ok s) ∨
          ∃ f, Refusal f ∧ load h files directory overrides = .error f) ↔
        escape h files directory = none) ∧
      ∀ f, escape h files directory = some f →
        ¬ Refusal f ∧ load h files directory overrides = .error f) ∧
    ∀ (a : ScanArguments) (w : World) (f : Fault),
      load h w.files (Path.ofText a.directory) a.overrides = .error f →
      (h.scanCommand a).on w =
        (.ok (if (escape h w.files (Path.ofText a.directory)).isNone then
            { code := 2, stderr := statusLine .fail a.emoji f.message }
          else { code := 1, stderr := f.message ++ "\n" }), w) := by
  refine ⟨fun files directory overrides => ?_, fun a w f hload => ?_⟩
  · obtain ⟨f, hf, huser, hload⟩ | ⟨hnone, hload⟩ := load_cases h files directory overrides
    · have hescape : ¬ Refusal f := by
        intro hrefusal
        rw [isUserFault_of_refusal hrefusal] at huser
        cases huser
      rw [hload, hf]
      refine ⟨⟨?_, ?_⟩, ?_⟩
      · rintro (⟨s, hs⟩ | ⟨g, hrefusal, hg⟩)
        · cases hs
        · cases hg
          exact absurd hrefusal hescape
      · intro hnone
        cases hnone
      · intro g hg
        cases hg
        exact ⟨hescape, rfl⟩
    · rw [hnone]
      exact ⟨iff_of_true hload rfl, fun f hf => nomatch hf⟩
  · rw [h.scanCommand_on_error a w hload, isUserFault_of_load hload]

/-- A directory whose settings are a byte that no text has. -/
def garbledTree : FileTree :=
  .directory [("repo", .directory [(".fast-cv.toml", .file [0xff] false)])]

theorem load_refused_garbled :
    let h := Host.sampleHost
    let f : Fault := .undecodable ⟨0, [0xff], "invalid start byte"⟩
    escape h garbledTree Host.sampleRoot = some f ∧
      load h garbledTree Host.sampleRoot [] = .error f ∧
      ¬ ((∃ s, load h garbledTree Host.sampleRoot [] = .ok s) ∨
        ∃ f, Refusal f ∧ load h garbledTree Host.sampleRoot [] = .error f) ∧
      (h.scanCommand { directory := "/repo" }).on { files := garbledTree } =
        (.ok { code := 1, stderr := f.message ++ "\n" }, { files := garbledTree }) := by
  intro h f
  have hescape : escape h garbledTree Host.sampleRoot = some f := rfl
  obtain ⟨hload, hanswer⟩ := load_refused h
  obtain ⟨hiff, hfault⟩ := hload garbledTree Host.sampleRoot []
  have hasked := ((hload garbledTree Host.sampleRoot
    { directory := "/repo" : ScanArguments }.overrides).2 f hescape).2
  refine ⟨hescape, (hfault f hescape).2, ?_, hanswer { directory := "/repo" } _ f hasked⟩
  rw [hiff, hescape]
  exact Option.some_ne_none f

end Settings
end CodeAudit
