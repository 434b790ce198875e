import Steveo.Library.Action

/-!
# Actions composed of basic ones

What every basic action of a kind does, every action that is composed of them does: keep to an
effect, or behave alike in states that look alike.
-/

namespace Steveo

namespace Action

variable {σ α β : Type}

/-- In states that look alike the action has the same outcome, and they look alike afterwards. -/
def Respects (alike : σ → σ → Prop) (action : Action σ α) : Prop :=
  ∀ left right, alike left right →
    (exec action left).1 = (exec action right).1 ∧
      alike (exec action left).2 (exec action right).2

/-- Actions put together from basic ones. -/
inductive Composed (basic : (α : Type) → Action σ α → Prop) : {α : Type} → Action σ α → Prop
  | basic {α : Type} {action : Action σ α} (is : basic α action) : Composed basic action
  | pure {α : Type} (value : α) : Composed basic (Pure.pure value : Action σ α)
  | throw {α : Type} (message : String) :
      Composed basic (MonadExcept.throw message : Action σ α)
  | bind {α β : Type} {action : Action σ α} {next : α → Action σ β}
      (first : Composed basic action) (later : ∀ value, Composed basic (next value)) :
      Composed basic (action >>= next)
  | attempt {α : Type} {action : Action σ α} (observed : Composed basic action) :
      Composed basic (Action.attempt action)

namespace Composed

variable {basic : (α : Type) → Action σ α → Prop}

theorem ensure (check : Bool) (message : String) :
    Composed basic (Action.ensure check message) := by
  cases check with
  | true => exact .pure ()
  | false => exact .throw message

theorem ofExcept (outcome : Except String α) :
    Composed basic (MonadExcept.ofExcept outcome : Action σ α) := by
  cases outcome with
  | ok value => exact .pure value
  | error message => exact .throw message

/-- Composed actions have the effects that basic ones have. -/
theorem preserves {relation : σ → σ → Prop} (effects : EffectRelation relation)
    (kept : ∀ (α : Type) (action : Action σ α), basic α action → Preserves relation action)
    {action : Action σ α} (composed : Composed basic action) : Preserves relation action := by
  induction composed with
  | basic is => exact kept _ _ is
  | pure value => exact effects.pure value
  | throw message => exact effects.throw message
  | bind _ _ first later => exact effects.bind first later
  | attempt _ observed => exact EffectRelation.attempt observed

/-- Composed actions respect what basic ones respect. -/
theorem respects {alike : σ → σ → Prop}
    (kept : ∀ (α : Type) (action : Action σ α), basic α action → Respects alike action)
    {action : Action σ α} (composed : Composed basic action) : Respects alike action := by
  induction composed with
  | basic is => exact kept _ _ is
  | pure value => exact fun left right same => ⟨rfl, same⟩
  | throw message => exact fun left right same => ⟨rfl, same⟩
  | @bind α β action next _ _ first later =>
      intro left right same
      obtain ⟨outcome, ends⟩ := first left right same
      rw [exec_bind, exec_bind]
      rcases leftResult : exec action left with ⟨leftOutcome, leftEnd⟩
      rcases rightResult : exec action right with ⟨rightOutcome, rightEnd⟩
      rw [leftResult, rightResult] at outcome ends
      obtain rfl : leftOutcome = rightOutcome := outcome
      cases leftOutcome with
      | ok value => exact later value leftEnd rightEnd ends
      | error message => exact ⟨rfl, ends⟩
  | @attempt α action _ observed =>
      intro left right same
      obtain ⟨outcome, ends⟩ := observed left right same
      exact ⟨congrArg Except.ok outcome, ends⟩

end Composed

end Action

end Steveo
