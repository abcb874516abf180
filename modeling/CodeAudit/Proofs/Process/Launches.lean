import CodeAudit.Proofs.Steps
import CodeAudit.Process.Run
namespace CodeAudit

/-- From one world to another nothing was started but launches with a property. -/
def Launched (p : Launch → Prop) (w w' : World) : Prop :=
  ∃ new, w'.launches = w.launches ++ new ∧ ∀ l ∈ new, p l

namespace Launched
variable {p q : Launch → Prop} {u v w : World}

theorem of_eq (h : v.launches = u.launches) : Launched p u v := ⟨[], by simp [h], by simp⟩

theorem trans (h : Launched p u v) (h' : Launched p v w) : Launched p u w := by
  obtain ⟨new, hn, hp⟩ := h
  obtain ⟨more, hm, hp'⟩ := h'
  refine ⟨new ++ more, by rw [hm, hn, List.append_assoc], fun l hl => ?_⟩
  rcases List.mem_append.mp hl with hl | hl
  · exact hp l hl
  · exact hp' l hl

theorem mono (h : Launched p u v) (hpq : ∀ l, p l → q l) : Launched q u v := by
  obtain ⟨new, hn, hp⟩ := h
  exact ⟨new, hn, fun l hl => hpq l (hp l hl)⟩

end Launched

namespace Act
variable {α β : Type} {p q : Launch → Prop}

/-- Whatever a step comes to, it starts nothing but launches with a property. -/
def Starts (p : Launch → Prop) (x : Act α) : Prop := ∀ w, Launched p w (x.on w).2

theorem Starts.mono {x : Act α} (h : x.Starts p) (hpq : ∀ l, p l → q l) : x.Starts q :=
  fun w => (h w).mono hpq

theorem starts_of_eq {x : Act α} (h : ∀ w, (x.on w).2.launches = w.launches) : x.Starts p :=
  fun w => .of_eq (h w)

theorem starts_pure (a : α) : (pure a : Act α).Starts p := starts_of_eq fun _ => rfl

theorem starts_ofExcept (x : Except Fault α) : (ofExcept x).Starts p :=
  starts_of_eq fun w => by rw [on_ofExcept]

theorem starts_attempt {x : Act α} (h : x.Starts p) : (attempt x).Starts p := h

theorem starts_bind {x : Act α} {f : α → Act β} (hx : x.Starts p) (hf : ∀ a, (f a).Starts p) :
    (x >>= f).Starts p := by
  intro w
  have hw := hx w
  rcases hstep : x.on w with ⟨r, v⟩
  rw [hstep] at hw
  cases r with
  | ok a =>
    rw [on_bind_ok hstep]
    exact hw.trans (hf a v)
  | error e =>
    rw [on_bind_error hstep]
    exact hw

theorem starts_ofExcept_bind {x : Except Fault α} {f : α → Act β}
    (hf : ∀ a, x = .ok a → (f a).Starts p) : (ofExcept x >>= f).Starts p := by
  cases x with
  | ok a => exact hf a rfl
  | error e => exact starts_of_eq fun _ => rfl

theorem starts_modify (f : World → World) (hf : ∀ w, (f w).launches = w.launches) :
    (modify f : Act PUnit).Starts p := starts_of_eq hf

end Act

namespace Host
open Act

/-- A launch is what is asked for, among whatever files. -/
def Asks (h : Host) (s : Start) (l : Launch) : Prop :=
  ∃ files path, h.prepare files s = .ok (path, l)

theorem starts_start (h : Host) (s : Start) : (h.start s).Starts (h.Asks s) := by
  intro w
  rw [start, on_bind_ok (on_files w)]
  cases hp : h.prepare w.files s with
  | error e => exact .of_eq rfl
  | ok prepared =>
    obtain ⟨path, launch⟩ := prepared
    rw [on_bind_ok (on_ofExcept _ w)]
    dsimp only
    cases h.react w.files path launch with
    | error e => exact .of_eq rfl
    | ok reaction =>
      refine ⟨[launch], rfl, fun l hl => ?_⟩
      obtain rfl := List.mem_singleton.mp hl
      exact ⟨w.files, path, hp⟩

theorem starts_runCommand (h : Host) (s : Start) (capture : Bool) (limit : Option Limit) :
    (h.runCommand s capture limit).Starts (h.Asks s) := by
  refine starts_bind (h.starts_start s) fun (path, reaction) => ?_
  cases limit with
  | none => exact starts_bind (starts_ofExcept _) fun _ => starts_pure _
  | some limit =>
    refine starts_bind (starts_ofExcept _) fun _ => ?_
    split
    · exact starts_bind (starts_ofExcept _) fun _ => starts_pure _
    · exact starts_bind (starts_modify _ fun _ => rfl) fun _ => starts_pure _

end Host
end CodeAudit
