import Stencil.Error

/-!
# Computations that keep their state

Work on a run and work on the disk is the same kind of computation: it may fail, and the state that
it has come to stays. These are the laws by which such a computation is taken apart.
-/

namespace Stencil.Effect

variable {σ α β : Type}

/-- A computation followed by another one: where the first fails, the second is not begun. -/
theorem bind_eq (x : ExceptT Error (StateM σ) α) (f : α → ExceptT Error (StateM σ) β) (s : σ) :
    (x >>= f) s = match x s with
      | (.ok a, t) => f a t
      | (.error err, t) => (.error err, t) := by
  show ExceptT.bind x f s = _
  simp only [ExceptT.bind, ExceptT.mk, bind, StateT.bind, ExceptT.bindCont]
  rcases x s with ⟨_ | _, t⟩ <;> rfl

/-- Two computations in a row succeed where the first succeeds, and the second on what it left. -/
theorem bind_eq_ok_iff {x : ExceptT Error (StateM σ) α} {f : α → ExceptT Error (StateM σ) β}
    {s t : σ} {b : β} :
    (x >>= f) s = (.ok b, t) ↔ ∃ a u, x s = (.ok a, u) ∧ f a u = (.ok b, t) := by
  rw [bind_eq]
  constructor
  · intro h
    rcases hx : x s with ⟨_ | a, u⟩
    · rw [hx] at h
      cases h
    · rw [hx] at h
      exact ⟨a, u, rfl, h⟩
  · rintro ⟨a, u, hx, hf⟩
    rw [hx]
    exact hf

/-- They fail where the first fails, or the second on what the first left. -/
theorem bind_eq_error_iff {x : ExceptT Error (StateM σ) α} {f : α → ExceptT Error (StateM σ) β}
    {s t : σ} {err : Error} :
    (x >>= f) s = (.error err, t) ↔
      x s = (.error err, t) ∨ ∃ a u, x s = (.ok a, u) ∧ f a u = (.error err, t) := by
  rw [bind_eq]
  rcases hx : x s with ⟨err' | a, u⟩
  · exact ⟨fun h => .inl (by cases h; rfl), fun h => h.elim (fun h => by cases h; rfl) nofun⟩
  · refine ⟨fun h => .inr ⟨a, u, rfl, h⟩, fun h => h.elim nofun ?_⟩
    rintro ⟨a', u', hx', hf⟩
    cases hx'
    exact hf

theorem pure_eq_ok_iff {a b : α} {s t : σ} :
    (pure a : ExceptT Error (StateM σ) α) s = (.ok b, t) ↔ a = b ∧ s = t := by
  show (Except.ok a, s) = (Except.ok b, t) ↔ _
  rw [Prod.mk.injEq, Except.ok.injEq]

@[simp]
theorem modify_bind (g : σ → σ) (f : Unit → ExceptT Error (StateM σ) α) (s : σ) :
    ((modify g : ExceptT Error (StateM σ) Unit) >>= f) s = f () (g s) := bind_eq _ _ _

@[simp]
theorem get_bind (f : σ → ExceptT Error (StateM σ) α) (s : σ) :
    ((get : ExceptT Error (StateM σ) σ) >>= f) s = f s s := bind_eq _ _ _

/-- The same where there is no state. -/
theorem except_bind_eq_ok_iff {ε : Type} {x : Except ε α} {f : α → Except ε β} {b : β} :
    (x >>= f) = .ok b ↔ ∃ a, x = .ok a ∧ f a = .ok b := by
  cases x with
  | error err =>
    constructor
    · intro h
      cases h
    · rintro ⟨a, ha, -⟩
      cases ha
  | ok a =>
    constructor
    · intro h
      exact ⟨a, rfl, h⟩
    · rintro ⟨a', ha, hf⟩
      cases ha
      exact hf

/-- A result is what it was under another name for errors. -/
theorem mapError_eq_ok_iff {ε ε' : Type} {x : Except ε α} {f : ε → ε'} {a : α} :
    x.mapError f = .ok a ↔ x = .ok a := by
  cases x with
  | error err => exact ⟨nofun, nofun⟩
  | ok b =>
    show Except.ok b = .ok a ↔ _
    rw [Except.ok.injEq, Except.ok.injEq]

theorem eq_ok_of_toOption {ε : Type} {x : Except ε α} {a : α} (h : x.toOption = some a) :
    x = .ok a := by
  cases x with
  | error err => cases h
  | ok b =>
    cases h
    rfl

theorem eq_ok_of_fst {σ ε : Type} {x : Except ε α × σ} {a : α} (h : x.1.toOption = some a) :
    x = (.ok a, x.2) := Prod.ext (eq_ok_of_toOption h) rfl

theorem exists_error_of_toOption {ε : Type} {x : Except ε α} (h : x.toOption = none) :
    ∃ err, x = .error err := by
  cases x with
  | error err => exact ⟨err, rfl⟩
  | ok a => cases h

end Stencil.Effect
