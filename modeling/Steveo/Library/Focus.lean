import Steveo.Library.Action

/-!
# Actions on a part of a state

An action on a part of a state acts on the whole state and leaves the rest of it as it is.  To act
on a part respects the ways in which actions are put together.
-/

namespace Steveo

namespace Action

variable {σ τ α β : Type}

/-- A part of a state: how it is read and how it is replaced. -/
structure Part (τ σ : Type) where
  view : τ → σ
  update : σ → τ → τ
  view_update : ∀ part whole, view (update part whole) = part
  update_update : ∀ last part whole, update last (update part whole) = update last whole
  update_view : ∀ whole, update (view whole) whole = whole

variable (part : Part τ σ)

/-- Act on a part of a state. -/
def focus (action : Action σ α) : Action τ α := ExceptT.mk fun whole =>
  let answer := exec action (part.view whole)
  (answer.1, part.update answer.2 whole)

theorem exec_focus (action : Action σ α) (whole : τ) :
    exec (focus part action) whole =
      ((exec action (part.view whole)).1, part.update (exec action (part.view whole)).2 whole) :=
  rfl

@[simp] theorem focus_pure (value : α) : focus part (pure value : Action σ α) = pure value :=
  ext fun whole => by rw [exec_focus, exec_pure, exec_pure, part.update_view]

@[simp] theorem focus_throw (message : String) :
    focus part (throw message : Action σ α) = throw message :=
  ext fun whole => by rw [exec_focus, exec_throw, exec_throw, part.update_view]

@[simp] theorem focus_bind (action : Action σ α) (next : α → Action σ β) :
    focus part (action >>= next) = focus part action >>= fun value => focus part (next value) := by
  refine ext fun whole => ?_
  rw [exec_focus, exec_bind, exec_bind, exec_focus]
  rcases exec action (part.view whole) with ⟨message | value, after⟩
  · rfl
  · dsimp only
    rw [exec_focus, part.view_update, part.update_update]

@[simp] theorem focus_attempt (action : Action σ α) :
    focus part (attempt action) = attempt (focus part action) := rfl

@[simp] theorem focus_ensure (check : Bool) (message : String) :
    focus part (ensure check message) = ensure check message := by
  cases check with
  | true => exact focus_pure part ()
  | false => exact focus_throw part message

end Action

end Steveo
