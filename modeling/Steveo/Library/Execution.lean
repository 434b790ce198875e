import Mathlib.Logic.Relation

/-!
# Guarded executions of partial step systems

A system offers a successor for some events and refuses the others.  A run is a list of events
none of which is refused.  `Along` restricts a run to events that meet a guard in the state in
which they happen, and the invariant rule is stated once for such guarded runs.
-/

namespace Steveo

/-- A system with labelled steps; `none` means that the event cannot happen in that state. -/
structure System (State Event : Type*) where
  /-- The state after an event, when the event can happen. -/
  step : State → Event → Option State

namespace System

variable {State Event : Type*}

/-- Execute a list of events in order, failing at the first event that is refused. -/
def run (system : System State Event) : List Event → State → Option State
  | [], state => some state
  | event :: events, state => (system.step state event).bind (system.run events)

@[simp] theorem run_nil (system : System State Event) (state : State) :
    system.run [] state = some state := rfl

@[simp] theorem run_cons (system : System State Event) (event : Event)
    (events : List Event) (state : State) :
    system.run (event :: events) state = (system.step state event).bind (system.run events) := rfl

theorem run_append (system : System State Event) (earlier later : List Event) (state : State) :
    system.run (earlier ++ later) state = (system.run earlier state).bind (system.run later) := by
  induction earlier generalizing state with
  | nil => rfl
  | cons event events induction =>
      simp only [List.cons_append, run_cons, Option.bind_assoc]
      congr 1
      funext next
      exact induction next

/-- Every event of the list meets the guard in the state in which it happens. -/
def Along (system : System State Event) (guard : State → Event → Prop) :
    List Event → State → Prop
  | [], _ => True
  | event :: events, state =>
      guard state event ∧
        ∀ next, system.step state event = some next → system.Along guard events next

@[simp] theorem along_nil (system : System State Event)
    (guard : State → Event → Prop) (state : State) : system.Along guard [] state := trivial

@[simp] theorem along_cons (system : System State Event)
    (guard : State → Event → Prop) (event : Event) (events : List Event) (state : State) :
    system.Along guard (event :: events) state ↔
      guard state event ∧
        ∀ next, system.step state event = some next → system.Along guard events next :=
  Iff.rfl

theorem Along.cons {system : System State Event} {guard : State → Event → Prop} {event : Event}
    {events : List Event} {before after : State} (met : guard before event)
    (stepped : system.step before event = some after) (rest : system.Along guard events after) :
    system.Along guard (event :: events) before :=
  ⟨met, fun _ same => Option.some.inj (stepped.symm.trans same) ▸ rest⟩

/-- A guard that does not look at the state guards a run of events that meet it. -/
theorem along_of_forall (system : System State Event) {guard : Event → Prop} {events : List Event}
    (met : ∀ event ∈ events, guard event) (state : State) :
    system.Along (fun _ event => guard event) events state := by
  induction events generalizing state with
  | nil => trivial
  | cons event events induction =>
      obtain ⟨first, rest⟩ := List.forall_mem_cons.mp met
      exact ⟨first, fun next _ => induction rest next⟩

/-- A guard that every event meets in every state guards every run. -/
theorem along_of_always (system : System State Event) {guard : State → Event → Prop}
    (met : ∀ state event, guard state event) (events : List Event) (state : State) :
    system.Along guard events state := by
  induction events generalizing state with
  | nil => trivial
  | cons event events induction => exact ⟨met state event, fun next _ => induction next⟩

/-- Whether a run is guarded can be computed where the guard can. -/
instance decidableAlong (system : System State Event) (guard : State → Event → Prop)
    [∀ state event, Decidable (guard state event)] :
    ∀ events state, Decidable (system.Along guard events state)
  | [], _ => isTrue trivial
  | event :: events, state =>
      match step : system.step state event with
      | none => decidable_of_iff (guard state event) (by simp [step])
      | some next =>
          have := decidableAlong system guard events next
          decidable_of_iff (guard state event ∧ system.Along guard events next) (by simp [step])

/-- Some run leads from one state to another. -/
def Reaches (system : System State Event) (initial final : State) : Prop :=
  ∃ events, system.run events initial = some final

theorem Reaches.refl (system : System State Event) (state : State) : system.Reaches state state :=
  ⟨[], rfl⟩

theorem Reaches.trans {system : System State Event} {initial middle final : State}
    (first : system.Reaches initial middle) (second : system.Reaches middle final) :
    system.Reaches initial final := by
  obtain ⟨earlier, before⟩ := first
  obtain ⟨later, after⟩ := second
  exact ⟨earlier ++ later, by rw [run_append, before, Option.bind_some, after]⟩

theorem Reaches.single {system : System State Event} {before after : State} {event : Event}
    (step : system.step before event = some after) : system.Reaches before after :=
  ⟨[event], by rw [run_cons, step]; rfl⟩

/-- An invariant kept by every guarded step holds at the end of every guarded run. -/
theorem invariant_run {system : System State Event} {guard : State → Event → Prop}
    {invariant : State → Prop}
    (preserved : ∀ before event after, invariant before → guard before event →
      system.step before event = some after → invariant after)
    {events : List Event} {initial final : State} (start : invariant initial)
    (along : system.Along guard events initial)
    (execution : system.run events initial = some final) : invariant final := by
  induction events generalizing initial with
  | nil =>
      obtain rfl := Option.some.inj execution
      exact start
  | cons event events induction =>
      obtain ⟨middle, step, rest⟩ := Option.bind_eq_some_iff.mp execution
      exact induction (preserved initial event middle start along.1 step) (along.2 middle step) rest

/-- An invariant kept by every step holds at the end of every run. -/
theorem invariant_of_run {system : System State Event} {invariant : State → Prop}
    (preserved : ∀ before event after, invariant before → system.step before event = some after →
      invariant after)
    {events : List Event} {initial final : State} (start : invariant initial)
    (execution : system.run events initial = some final) : invariant final := by
  have unguarded : system.Along (fun _ _ => True) events initial :=
    system.along_of_forall (fun _ _ => trivial) initial
  refine invariant_run (fun before event after holds _ step => ?_) start unguarded execution
  exact preserved before event after holds step

/-- A property holds in every state that a list of events comes through. -/
def Throughout (system : System State Event) (property : State → Prop) :
    List Event → State → Prop
  | [], state => property state
  | event :: events, state =>
      property state ∧
        ∀ next, system.step state event = some next → system.Throughout property events next

theorem Throughout.start {system : System State Event} {property : State → Prop}
    {events : List Event} {state : State} (holds : system.Throughout property events state) :
    property state := by
  cases events with
  | nil => exact holds
  | cons event events => exact holds.1

/-- What holds throughout a run holds at its end. -/
theorem Throughout.run {system : System State Event} {property : State → Prop}
    {events : List Event} {initial final : State}
    (holds : system.Throughout property events initial)
    (execution : system.run events initial = some final) : property final := by
  induction events generalizing initial with
  | nil =>
      obtain rfl := Option.some.inj execution
      exact holds
  | cons event events induction =>
      obtain ⟨middle, step, rest⟩ := Option.bind_eq_some_iff.mp execution
      exact induction (holds.2 middle step) rest

/-- A property that an invariant implies, and that a step breaks unless it meets a guard, holds
throughout a run exactly if the run is guarded. -/
theorem throughout_iff_along {system : System State Event} {guard : State → Event → Prop}
    {invariant property : State → Prop} (implies : ∀ state, invariant state → property state)
    (preserved : ∀ before event after, invariant before → guard before event →
      system.step before event = some after → invariant after)
    (breaks : ∀ before event after, invariant before → system.step before event = some after →
      property after → guard before event)
    {events : List Event} {initial final : State} (start : invariant initial)
    (execution : system.run events initial = some final) :
    system.Throughout property events initial ↔ system.Along guard events initial := by
  induction events generalizing initial with
  | nil => exact iff_of_true (implies initial start) trivial
  | cons event events induction =>
      obtain ⟨middle, step, rest⟩ := Option.bind_eq_some_iff.mp execution
      constructor
      · rintro ⟨-, later⟩
        have allowed := breaks initial event middle start step (later middle step).start
        refine ⟨allowed, fun next steps => ?_⟩
        obtain rfl := Option.some.inj (step.symm.trans steps)
        exact (induction (preserved initial event middle start allowed step) rest).mp
          (later middle step)
      · rintro ⟨allowed, along⟩
        refine ⟨implies initial start, fun next steps => ?_⟩
        obtain rfl := Option.some.inj (step.symm.trans steps)
        exact (induction (preserved initial event middle start allowed step) rest).mpr
          (along middle step)

/-- States that look the same are indistinguishable by guarded runs if they are by guarded steps. -/
theorem run_congr {View : Type*} {system : System State Event} {guard : State → Event → Prop}
    {view : State → View}
    (respects : ∀ left right event, view left = view right → guard left event →
      guard right event → (system.step left event).map view = (system.step right event).map view)
    {events : List Event} {left right : State} (same : view left = view right)
    (alongLeft : system.Along guard events left) (alongRight : system.Along guard events right) :
    (system.run events left).map view = (system.run events right).map view := by
  induction events generalizing left right with
  | nil => exact congrArg some same
  | cons event events induction =>
      have first := respects left right event same alongLeft.1 alongRight.1
      rw [run_cons, run_cons]
      cases stepLeft : system.step left event with
      | none =>
          rw [stepLeft, Option.map_none] at first
          rw [Option.map_eq_none_iff.mp first.symm]
      | some nextLeft =>
          rw [stepLeft, Option.map_some] at first
          obtain ⟨nextRight, stepRight, alike⟩ := Option.map_eq_some_iff.mp first.symm
          rw [stepRight, Option.bind_some, Option.bind_some]
          exact induction alike.symm (alongLeft.2 nextLeft stepLeft)
            (alongRight.2 nextRight stepRight)

/-- Where own steps depend only on what is alike and foreign steps leave that alone, a run without
its foreign events is a run and ends alike. -/
theorem run_filter {system : System State Event} {invariant : State → Prop}
    {guard : Event → Prop} {own : Event → Bool} {alike : State → State → Prop}
    (preserved : ∀ before event after, invariant before → guard event →
      system.step before event = some after → invariant after)
    (follows : ∀ left right event next, alike left right → own event = true → invariant left →
      guard event → system.step left event = some next →
        ∃ other, system.step right event = some other ∧ alike next other)
    (ignores : ∀ left right event next, alike left right → own event = false → invariant left →
      guard event → system.step left event = some next → alike next right)
    {events : List Event} {left right final : State} (same : alike left right)
    (start : invariant left) (guarded : ∀ event ∈ events, guard event)
    (execution : system.run events left = some final) :
    ∃ alone, system.run (events.filter own) right = some alone ∧ alike final alone := by
  induction events generalizing left right with
  | nil =>
      obtain rfl := Option.some.inj execution
      exact ⟨right, rfl, same⟩
  | cons event events induction =>
      obtain ⟨middle, step, rest⟩ := Option.bind_eq_some_iff.mp execution
      obtain ⟨allowed, guarded⟩ := List.forall_mem_cons.mp guarded
      have kept := preserved left event middle start allowed step
      cases owned : own event with
      | true =>
          obtain ⟨other, step', alike'⟩ := follows left right event middle same owned start
            allowed step
          obtain ⟨alone, run, ends⟩ := induction alike' kept guarded rest
          refine ⟨alone, ?_, ends⟩
          rw [List.filter_cons_of_pos owned, run_cons, step', Option.bind_some, run]
      | false =>
          have alike' := ignores left right event middle same owned start allowed step
          rw [List.filter_cons_of_neg (by simp [owned])]
          exact induction alike' kept guarded rest

/-- What the steps of a run leave, one after the other. -/
def gathered {Trace : Type*} (system : System State Event) (leaves : State → Event → List Trace) :
    List Event → State → List Trace
  | [], _ => []
  | event :: events, state =>
      match system.step state event with
      | none => []
      | some next => leaves state event ++ system.gathered leaves events next

/-- The rule of invariants that look at what earlier steps have left. -/
theorem invariant_gathered {Trace : Type*} {system : System State Event}
    {leaves : State → Event → List Trace} {guard : Event → Prop}
    (invariant : List Trace → State → Prop)
    (preserved : ∀ earlier before event after, invariant earlier before → guard event →
      system.step before event = some after → invariant (earlier ++ leaves before event) after)
    {earlier : List Trace} {events : List Event} {initial final : State}
    (start : invariant earlier initial) (guarded : ∀ event ∈ events, guard event)
    (execution : system.run events initial = some final) :
    invariant (earlier ++ system.gathered leaves events initial) final := by
  induction events generalizing earlier initial with
  | nil =>
      obtain rfl := Option.some.inj execution
      rwa [gathered, List.append_nil]
  | cons event events induction =>
      obtain ⟨middle, step, rest⟩ := Option.bind_eq_some_iff.mp execution
      obtain ⟨allowed, guarded⟩ := List.forall_mem_cons.mp guarded
      simp only [gathered, step]
      rw [← List.append_assoc]
      exact induction (preserved earlier initial event middle start allowed step) guarded rest

end System

end Steveo
