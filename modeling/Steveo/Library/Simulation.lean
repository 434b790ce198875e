import Steveo.Library.Execution

/-!
# Systems seen from afar

A view of the states of a system forgets what does not matter.  A system simulates a relation on
views if every step that meets a guard keeps an invariant and leaves the view alone or moves it
along the relation; then every guarded run follows the relation.  Where the moves that change a view
go down a ranking, the view changes only so often, however long the run is.
-/

namespace Steveo

namespace System

variable {State Event View : Type*}

/-- Every guarded step keeps the invariant and leaves the view alone or moves it. -/
def Simulates (system : System State Event) (invariant : State → Prop)
    (guard : State → Event → Prop) (view : State → View) (move : View → View → Prop) : Prop :=
  ∀ before event after, invariant before → guard before event →
    system.step before event = some after →
      invariant after ∧ (view after = view before ∨ move (view before) (view after))

/-- How often the view changes in the course of a run. -/
def changes [DecidableEq View] (system : System State Event) (view : State → View) :
    List Event → State → Nat
  | [], _ => 0
  | event :: events, state =>
      match system.step state event with
      | none => 0
      | some next =>
          (if view next = view state then 0 else 1) + system.changes view events next

/-- If every step of a system is matched by a run of another one, so is every run. -/
theorem run_matched {Target Action : Type*} {system : System State Event}
    {target : System Target Action} {permitted : Action → Prop} {related : State → Target → Prop}
    (simulated : ∀ before event after start, related before start →
      system.step before event = some after → ∃ actions last, (∀ action ∈ actions,
        permitted action) ∧ target.run actions start = some last ∧ related after last)
    {events : List Event} {initial final : State} {start : Target}
    (execution : system.run events initial = some final) (begins : related initial start) :
    ∃ actions last, (∀ action ∈ actions, permitted action) ∧
      target.run actions start = some last ∧ related final last := by
  induction events generalizing initial start with
  | nil =>
      obtain rfl := Option.some.inj execution
      exact ⟨[], start, by simp, rfl, begins⟩
  | cons event events induction =>
      obtain ⟨middle, step, rest⟩ := Option.bind_eq_some_iff.mp execution
      obtain ⟨earlier, between, allowed, leads, holds⟩ :=
        simulated initial event middle start begins step
      obtain ⟨later, last, permits, follows, ends⟩ := induction rest holds
      refine ⟨earlier ++ later, last, ?_, ?_, ends⟩
      · exact fun action member =>
          (List.mem_append.mp member).elim (allowed action) (permits action)
      · rw [run_append, leads, Option.bind_some, follows]

namespace Simulates

variable {system : System State Event} {invariant : State → Prop} {guard : State → Event → Prop}
  {view : State → View} {move : View → View → Prop}

/-- A guarded run follows the moves. -/
theorem run (simulates : system.Simulates invariant guard view move) {events : List Event}
    {initial final : State} (start : invariant initial) (along : system.Along guard events initial)
    (execution : system.run events initial = some final) :
    Relation.ReflTransGen move (view initial) (view final) := by
  induction events generalizing initial with
  | nil =>
      obtain rfl := Option.some.inj execution
      exact .refl
  | cons event events induction =>
      obtain ⟨middle, step, rest⟩ := Option.bind_eq_some_iff.mp execution
      obtain ⟨kept, moves⟩ := simulates initial event middle start along.1 step
      have later := induction kept (along.2 middle step) rest
      rcases moves with same | moved
      · rwa [same] at later
      · exact .head moved later

/-- A property of views that every move keeps is kept by guarded runs. -/
theorem property (simulates : system.Simulates invariant guard view move) {holds : View → Prop}
    (kept : ∀ before after, holds before → move before after → holds after)
    {events : List Event} {initial final : State} (start : invariant initial)
    (along : system.Along guard events initial)
    (execution : system.run events initial = some final) (first : holds (view initial)) :
    holds (view final) := by
  have follows := simulates.run start along execution
  generalize view final = last at follows
  induction follows with
  | refl => exact first
  | tail _ moved induction => exact kept _ _ induction moved

/-- If every move that changes the view goes down a ranking, the number of changes is bounded by
the rank that is lost. -/
theorem changes_add_rank_le [DecidableEq View]
    (simulates : system.Simulates invariant guard view move) (rank : View → Nat)
    (descends : ∀ before after, move before after → after ≠ before → rank after < rank before)
    {events : List Event} {initial final : State} (start : invariant initial)
    (along : system.Along guard events initial)
    (execution : system.run events initial = some final) :
    system.changes view events initial + rank (view final) ≤ rank (view initial) := by
  induction events generalizing initial with
  | nil =>
      obtain rfl := Option.some.inj execution
      simp [changes]
  | cons event events induction =>
      obtain ⟨middle, step, rest⟩ := Option.bind_eq_some_iff.mp execution
      obtain ⟨kept, moves⟩ := simulates initial event middle start along.1 step
      have later := induction kept (along.2 middle step) rest
      simp only [changes, step]
      by_cases same : view middle = view initial
      · rw [if_pos same, Nat.zero_add, ← same]
        exact later
      · have lower := descends _ _ (moves.resolve_left same) same
        rw [if_neg same]
        omega

end Simulates

end System

end Steveo
