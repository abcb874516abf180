import CodeAudit.Proofs.Analyzer.Partition
namespace CodeAudit.Host
open Act
variable {h : Host} {a : Analyzer} {as : List Analyzer} {f : Fault} {u v w : World}

/-- How a command that may be started anywhere is prepared. -/
theorem prepare_words (h : Host) (files : FileTree) (word : String) (words : List String) :
    h.prepare files ⟨word :: words, none, []⟩ =
      match h.locate? files word with
      | none => .error (.notOnPath word)
      | some path =>
        if (path :: words).any (fun text => text.toList.contains '\x00') then .error .nullCharacter
        else match programPlace files h.workingDir.names path with
          | .error e => .error (.system e (Text.quoted path))
          | .ok place =>
            .ok (path, ⟨place, words, h.workingDir.names, h.environment []⟩) := by
  unfold prepare locate
  dsimp only
  cases h.locate? files word with
  | none => rfl
  | some path =>
    dsimp only [Bind.bind, Except.bind]
    by_cases hnull : (path :: words).any (fun text => text.toList.contains '\x00') = true
    · rw [if_pos hnull, if_pos hnull]
      rfl
    · rw [if_neg hnull, if_neg hnull]
      dsimp only [startDirectory]
      cases programPlace files h.workingDir.names path with
      | error e => rfl
      | ok place => rfl

theorem react_failure {files : FileTree} {path : String} {l : Launch}
    (hr : h.react files path l = .error f) : isInstallFailure f = true := by
  unfold react at hr
  split at hr
  · cases hr
    rfl
  · split at hr
    · cases hr
      rfl
    · cases hr

/-- What keeps a command from being started, other than a failure of the installation: that one of
its words, or the path of its program, has a null character. -/
theorem start_words_error_iff {word : String} {words : List String}
    (hf : isInstallFailure f = false) :
    (∃ v, (h.start ⟨word :: words, none, []⟩).on u = (.error f, v)) ↔
      f = .nullCharacter ∧ ∃ path, h.locate? u.files word = some path ∧
        ∃ text ∈ path :: words, '\x00' ∈ text.toList := by
  rw [start_on, prepare_words]
  cases h.locate? u.files word with
  | none =>
    refine iff_of_false ?_ (by simp)
    rintro ⟨v, he⟩
    cases he
    cases hf
  | some path =>
    dsimp only
    by_cases hnull : (path :: words).any (fun text => text.toList.contains '\x00') = true
    · rw [if_pos hnull]
      have htext : ∃ text ∈ path :: words, '\x00' ∈ text.toList := by
        simpa only [List.any_eq_true, List.contains_iff_mem] using hnull
      constructor
      · rintro ⟨v, he⟩
        cases he
        exact ⟨rfl, path, rfl, htext⟩
      · rintro ⟨rfl, -⟩
        exact ⟨u, rfl⟩
    · rw [if_neg hnull]
      refine iff_of_false ?_ ?_
      · rintro ⟨v, he⟩
        cases hplace : programPlace u.files h.workingDir.names path with
        | error e =>
          rw [hplace] at he
          cases he
          cases hf
        | ok place =>
          rw [hplace] at he
          dsimp only at he
          split at he
          · next hreact =>
            cases he
            rw [react_failure hreact] at hf
            cases hf
          · cases he
      · rintro ⟨-, path', he, htext⟩
        cases he
        apply hnull
        simpa only [List.any_eq_true, List.contains_iff_mem] using htext

theorem runChecked_words_error_iff {word : String} {words : List String}
    (hf : isInstallFailure f = false) :
    (∃ v, (h.runChecked ⟨word :: words, none, []⟩ true (some installLimit)).on u =
        (.error f, v)) ↔
      (f = .nullCharacter ∧ ∃ path, h.locate? u.files word = some path ∧
        ∃ text ∈ path :: words, '\x00' ∈ text.toList) ∨
      ∃ path r v cause, (h.start ⟨word :: words, none, []⟩).on u = (.ok (path, r), v) ∧
        inTime r installLimit.seconds = true ∧ Garbled r cause ∧ f = .undecodable cause := by
  have hstatus : ∀ path status stderr, f ≠ .commandFailed path status stderr := by
    rintro path status stderr rfl
    cases hf
  rw [runChecked_error_iff hstatus, runCommand_error_iff limits_awaited.2,
    start_words_error_iff hf]

/-- What an attempt to install an analyzer may raise: a word of its command, or the path of its
program, has a null character, or what is printed in time is not UTF-8. -/
inductive Mishap (h : Host) (a : Analyzer) (u : World) : Fault → Prop
  | nullCharacter {word path text : String} {words : List String}
    (hwords : Install.argv a.installHint = .ok (word :: words))
    (hfound : h.locate? u.files word = some path) (htext : text ∈ path :: words)
    (hnull : '\x00' ∈ text.toList) : Mishap h a u .nullCharacter
  | garbled {word path : String} {words : List String} {r : Reaction} {v : World}
    {cause : Text.Undecodable} (hwords : Install.argv a.installHint = .ok (word :: words))
    (hstart : (h.start ⟨word :: words, none, []⟩).on u = (.ok (path, r), v))
    (htime : inTime r installLimit.seconds = true) (hgarbled : Garbled r cause) :
    Mishap h a u (.undecodable cause)

theorem Mishap.uncaught (hm : h.Mishap a u f) : isInstallFailure f = false := by
  cases hm with
  | nullCharacter => rfl
  | garbled => rfl

theorem install_mishap_iff : (∃ v, (h.install a).on u = (.error f, v)) ↔ h.Mishap a u f := by
  rw [install_error_iff]
  constructor
  · rintro ⟨word, words, hwords, hf, hraised⟩
    rcases (runChecked_words_error_iff hf).mp hraised with ⟨rfl, path, hfound, text, htext, hnull⟩ |
      ⟨path, r, v, cause, hstart, htime, hgarbled, rfl⟩
    · exact .nullCharacter hwords hfound htext hnull
    · exact .garbled hwords hstart htime hgarbled
  · intro hm
    have hf := hm.uncaught
    cases hm with
    | nullCharacter hwords hfound htext hnull =>
      refine ⟨_, _, hwords, hf, (runChecked_words_error_iff hf).mpr (.inl ?_)⟩
      exact ⟨rfl, _, hfound, _, htext, hnull⟩
    | garbled hwords hstart htime hgarbled =>
      refine ⟨_, _, hwords, hf, (runChecked_words_error_iff hf).mpr (.inr ?_)⟩
      exact ⟨_, _, _, _, hstart, htime, hgarbled, rfl⟩

/-- One after the other, some analyzers are to be installed, until an attempt raises something. -/
def Interrupted (h : Host) (as : List Analyzer) (u : World) (f : Fault) : Prop :=
  ∃ (done : List (Analyzer × Bool)) (a : Analyzer) (rest : List Analyzer) (v : World),
    as = done.map (·.1) ++ a :: rest ∧ InTurn h.Attempt u done v ∧ h.Mishap a v f

theorem installAll_interrupted_iff :
    ((h.installAll as).on u).1 = .error f ↔ h.Interrupted as u f := by
  have hworld : ((h.installAll as).on u).1 = .error f ↔
      ∃ v, (h.installAll as).on u = (.error f, v) := by
    constructor
    · intro he
      exact ⟨_, Prod.ext he rfl⟩
    · rintro ⟨v, he⟩
      rw [he]
  rw [hworld, installAll_error_iff]
  simp only [install_mishap_iff, Interrupted]

/-- A precheck that is to install what is missing raises exactly what the first attempt raises that
comes to a mishap. If none does, it comes to an answer, and is content. -/
theorem precheck_installing (h : Host) (as : List Analyzer) (w : World) :
    ∃ answers u, Dealt h.Answers h.Probes as w answers u ∧
      (∀ f, ((h.precheck as true).on w).1 = .error f ↔
        h.Interrupted (unavailable answers) u f) ∧
      ((∃ p, ((h.precheck as true).on w).1 = .ok p ∧ p.ok = true) ↔
        ∀ f, ¬ h.Interrupted (unavailable answers) u f) := by
  obtain ⟨answers, u, hprobed⟩ := probeAll_answers h as w
  refine ⟨answers, u, probeAll_dealt hprobed, ?_⟩
  have hraises : ∀ f, ((h.precheck as true).on w).1 = .error f ↔
      h.Interrupted (unavailable answers) u f := by
    intro f
    rw [precheck_on h hprobed, ← installAll_interrupted_iff]
    by_cases hnone : unavailable answers = []
    · rw [if_pos hnone, hnone]
      exact iff_of_false nofun nofun
    · rw [if_neg hnone]
      exact map_eq_error
  refine ⟨hraises, ?_⟩
  simp only [← hraises]
  constructor
  · rintro ⟨p, hp, -⟩ f he
    rw [hp] at he
    cases he
  · intro hnone
    cases hp : ((h.precheck as true).on w).1 with
    | error f => exact absurd hp (hnone f)
    | ok p =>
      obtain ⟨answers', v, -, hok, -⟩ := h.precheck_ok (Prod.ext hp rfl)
      refine ⟨p, rfl, ?_⟩
      rw [← Bool.not_eq_false, hok]
      exact fun hrefused => Bool.noConfusion hrefused.1

/-- A host with an installer that prints a byte that no text has. -/
def garblingHost : Host :=
  { installingHost with
    programs := [(["bin", "inst"], fun _ files => .ok { files, stdout := [0xFF] })] }

/-- An installer that succeeds, but prints what is not UTF-8, is not survived. -/
theorem precheck_installing_garbled :
    ∃ answers u f,
      ((garblingHost.precheck [promising 0 "late" [.ok false]] true).on installingWorld).1 =
        .error f ∧
      garblingHost.Interrupted (unavailable answers) u f := by
  have hraised : ((garblingHost.precheck [promising 0 "late" [.ok false]] true).on
      installingWorld).1.toOption.isNone = true := by
    decide +kernel
  obtain ⟨answers, u, -, hraises, -⟩ :=
    precheck_installing garblingHost [promising 0 "late" [.ok false]] installingWorld
  cases he : ((garblingHost.precheck [promising 0 "late" [.ok false]] true).on
      installingWorld).1 with
  | error f => exact ⟨answers, u, f, rfl, (hraises f).mp he⟩
  | ok p =>
    rw [he] at hraised
    cases hraised

end CodeAudit.Host
