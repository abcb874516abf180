import CodeAudit.Host
namespace CodeAudit

theorem bind_eq_ok {ε α β : Type} {x : Except ε α} {f : α → Except ε β} {b : β} :
    (x >>= f) = .ok b ↔ ∃ a, x = .ok a ∧ f a = .ok b := by
  cases x with
  | error e => simp [Bind.bind, Except.bind]
  | ok a => simp [Bind.bind, Except.bind]

theorem bind_eq_error {ε α β : Type} {x : Except ε α} {f : α → Except ε β} {e : ε} :
    (x >>= f) = .error e ↔ x = .error e ∨ ∃ a, x = .ok a ∧ f a = .error e := by
  cases x with
  | error e => simp [Bind.bind, Except.bind]
  | ok a => simp [Bind.bind, Except.bind]

theorem map_eq_ok {ε α β : Type} {x : Except ε α} {f : α → β} {b : β} :
    x.map f = .ok b ↔ ∃ a, x = .ok a ∧ f a = b := by
  cases x with
  | error e => simp [Except.map]
  | ok a => simp [Except.map]

theorem map_eq_error {ε α β : Type} {x : Except ε α} {f : α → β} {e : ε} :
    x.map f = .error e ↔ x = .error e := by
  cases x with
  | error e => simp [Except.map]
  | ok a => simp [Except.map]

theorem toOption_eq_some {ε α : Type} {x : Except ε α} {a : α} :
    x.toOption = some a ↔ x = .ok a := by
  cases x with
  | error e => simp [Except.toOption]
  | ok b => simp [Except.toOption]

namespace Act

variable {α β : Type} {w w' : World}

/-- What a step comes to in a world, and the world it leaves. -/
def on (x : Act α) (w : World) : Except Fault α × World := x w

theorem on_bind_ok {x : Act α} {f : α → Act β} {a : α} {v : World} (h : x.on w = (.ok a, v)) :
    (x >>= f).on w = (f a).on v := by
  have hx : x w = (.ok a, v) := h
  simp only [on, Bind.bind, ExceptT.bind, ExceptT.mk, StateT.bind, hx]
  rfl

theorem on_bind_error {x : Act α} {f : α → Act β} {e : Fault} {v : World}
    (h : x.on w = (.error e, v)) : (x >>= f).on w = (.error e, v) := by
  have hx : x w = (.error e, v) := h
  simp only [on, Bind.bind, ExceptT.bind, ExceptT.mk, StateT.bind, hx]
  rfl

theorem on_bind_pure (x : Act α) (f : α → β) (w : World) :
    (x >>= fun a => pure (f a)).on w = ((x.on w).1.map f, (x.on w).2) := by
  rcases hx : x.on w with ⟨r, v⟩
  cases r with
  | ok a => rw [on_bind_ok hx]; rfl
  | error e => rw [on_bind_error hx]; rfl

/-- A step that is followed by another comes to an answer if both do, one after the other. -/
theorem bind_eq_ok {x : Act α} {f : α → Act β} {b : β} :
    (x >>= f).on w = (.ok b, w') ↔ ∃ a v, x.on w = (.ok a, v) ∧ (f a).on v = (.ok b, w') := by
  rcases hx : x.on w with ⟨r, v⟩
  cases r with
  | ok a =>
    rw [on_bind_ok hx]
    constructor
    · intro h
      exact ⟨a, v, rfl, h⟩
    · intro h
      obtain ⟨a', v', he, h⟩ := h
      cases he
      exact h
  | error e =>
    rw [on_bind_error hx]
    simp

/-- As `bind_eq_ok`, of a fault. -/
theorem bind_eq_error {x : Act α} {f : α → Act β} {e : Fault} :
    (x >>= f).on w = (.error e, w') ↔
      x.on w = (.error e, w') ∨ ∃ a v, x.on w = (.ok a, v) ∧ (f a).on v = (.error e, w') := by
  rcases hx : x.on w with ⟨r, v⟩
  cases r with
  | ok a =>
    rw [on_bind_ok hx]
    constructor
    · intro h
      exact .inr ⟨a, v, rfl, h⟩
    · intro h
      rcases h with hnone | ⟨a', v', he, h⟩
      · cases hnone
      · cases he
        exact h
  | error e' =>
    rw [on_bind_error hx]
    simp

theorem on_pure (a : α) (w : World) : (pure a : Act α).on w = (.ok a, w) := rfl

theorem on_attempt (x : Act α) (w : World) :
    (attempt x).on w = (.ok (x.on w).1, (x.on w).2) := rfl

theorem on_files (w : World) : files.on w = (.ok w.files, w) := rfl

theorem on_ofExcept (x : Except Fault α) (w : World) : (ofExcept x).on w = (x, w) := by
  cases x with
  | error e => rfl
  | ok a => rfl

theorem ofExcept_eq_ok {x : Except Fault α} {a : α} :
    (ofExcept x).on w = (.ok a, w') ↔ x = .ok a ∧ w' = w := by
  rw [on_ofExcept, Prod.mk.injEq, eq_comm (a := w)]

end Act
end CodeAudit
