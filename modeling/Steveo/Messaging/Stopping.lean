import Steveo.Library.Log
import Steveo.Messaging.Polling

/-!
# No handler starts after a stop

The runner looks at the manager before it handles a message, and then waits for a resource and
perhaps for a deletion before it calls the handler.  This file determines when a call of `stop` is
the end of all handler calls.
-/

namespace Steveo

namespace Polling

variable {η : Type} {setup : Setup η}

/-- A call of a handler is late when `stop` has been called before. -/
def StartsInTime (earlier : List Notice) (notice : Notice) : Prop :=
  (∃ id, notice = .deed id .subscribe) → .stop ∉ earlier

/-- In no state that the runner reaches has a handler been called after a call of `stop`. -/
def NeverLate (setup : Setup η) : Prop :=
  ∀ events final, (system setup).run events .initial = some final →
    Guarded StartsInTime final.log

/-- Whether the check of the manager has been passed and the handler not been called yet. -/
def Stage.admitted : Stage → Bool
  | .acquiring | .deletingFirst => true
  | .wrapped | .subscribed | .deletingLast | .releasing | .done | .rejected => false

/-- The manager is stopped while no message is between the check of the manager and the call of
its handler, and it is not paused or resumed afterwards. -/
def StopsBetween (state : State) : Event → Prop
  | .stop => ∀ handling ∈ state.handlings, handling.stage.admitted = false
  | .pause | .resume => .stop ∉ state.log
  | _ => True

instance decidableStopsBetween (state : State) :
    ∀ event, Decidable (StopsBetween state event)
  | .stop =>
      inferInstanceAs (Decidable (∀ handling ∈ state.handlings, handling.stage.admitted = false))
  | .pause | .resume => inferInstanceAs (Decidable (.stop ∉ state.log))
  | .forceTerminate | .start _ | .tick _ | .fetch _ _ | .dequeue _ _ _ | .take _ _ _ | .begin _ _ _
  | .abandon _ _ | .complete _ _ | .close _ | .answer _ _ => isTrue trivial

/-- Only a runner that is not to terminate admits a message. -/
theorem admission_admitted {manager : RunnerState} (terminating : manager.shouldTerminate = true) :
    (admission manager).admitted = false := by
  rw [admission, if_pos terminating]
  rfl

theorem entrance_admitted {manager : RunnerState} (terminating : manager.shouldTerminate = true)
    (message : SqsMessage) : (entrance setup manager message).admitted = false := by
  rw [entrance]
  split
  · rfl
  · split
    · rfl
    · exact admission_admitted terminating

/-- A handling that has not been admitted does not call its handler and is not admitted later. -/
theorem answer_not_admitted {handling : Handling} {fulfilled : Bool} {next : Stage × List Deed}
    (answers : handling.answer setup fulfilled = some next)
    (passed : handling.stage.admitted = false) :
    next.1.admitted = false ∧ .subscribe ∉ next.2 := by
  obtain ⟨topic, payload, message, stage⟩ := handling
  cases stage with
  | wrapped => simp [Handling.answer] at answers
  | acquiring => contradiction
  | deletingFirst => contradiction
  | subscribed =>
      cases fulfilled with
      | true =>
          simp only [Handling.answer, Option.some.injEq] at answers
          subst answers
          split
          · refine ⟨rfl, ?_⟩
            simp only [Handling.deletion]
            split <;> simp
          · exact ⟨rfl, by simp⟩
      | false =>
          obtain rfl := Option.some.inj answers
          exact ⟨rfl, by simp⟩
  | deletingLast =>
      cases fulfilled with
      | true =>
          obtain rfl := Option.some.inj answers
          exact ⟨rfl, by simp⟩
      | false =>
          simp only [Handling.answer, Option.ite_none_right_eq_some, Option.some.injEq] at answers
          obtain ⟨-, rfl⟩ := answers
          exact ⟨rfl, by simp⟩
  | releasing =>
      cases fulfilled with
      | true =>
          obtain rfl := Option.some.inj answers
          exact ⟨rfl, by simp⟩
      | false =>
          obtain rfl := Option.some.inj answers
          exact ⟨rfl, by simp⟩
  | done => simp [Handling.answer] at answers
  | rejected => simp [Handling.answer] at answers

/-- Once `stop` has been called, the runner is to terminate and no message is about to be handed
to its handler. -/
structure Halted (state : State) : Prop where
  terminating : state.manager.shouldTerminate = true
  settled : ∀ handling ∈ state.handlings, handling.stage.admitted = false

/-- No handler has been called late, and after a stop none is going to be. -/
structure InTime (state : State) : Prop where
  log : Guarded StartsInTime state.log
  halted : .stop ∈ state.log → Halted state

/-- The runner stays halted when a handling changes that is not admitted. -/
theorem Halted.set {before after : State} (halted : Halted before) {id : Nat} {handling : Handling}
    (passed : handling.stage.admitted = false) (manager : after.manager = before.manager)
    (handlings : after.handlings = before.handlings.set id handling) : Halted after := by
  refine ⟨manager ▸ halted.terminating, fun other member => ?_⟩
  rcases List.mem_or_eq_of_mem_set (handlings ▸ member) with member | rfl
  · exact halted.settled other member
  · exact passed

theorem inTime_step {before after : State} {event : Event} (inTime : InTime before)
    (between : StopsBetween before event) (stepped : step setup before event = some after) :
    InTime after := by
  cases step_effect stepped with
  | stop =>
      refine ⟨guarded_append.mpr ⟨inTime.log, guarded_of_forall ?_⟩, fun _ => ⟨?_, between⟩⟩
      · rintro earlier - notice member ⟨id, rfl⟩
        simp at member
      · dsimp only
        split
        · assumption
        · rfl
  | pause => exact ⟨inTime.log, fun stopped => absurd stopped between⟩
  | resume => exact ⟨inTime.log, fun stopped => absurd stopped between⟩
  | quiet manager handlings log =>
      refine ⟨log ▸ inTime.log, fun stopped => ?_⟩
      obtain ⟨terminating, settled⟩ := inTime.halted (log ▸ stopped)
      refine ⟨?_, handlings ▸ settled⟩
      rcases manager with manager | manager
      · rw [manager, terminating]
      · rw [manager, RunnerState.shouldTerminate]
  | taken handling entered manager handlings log =>
      refine ⟨log ▸ inTime.log, fun stopped => ?_⟩
      obtain ⟨terminating, settled⟩ := inTime.halted (log ▸ stopped)
      refine ⟨manager ▸ terminating, fun other member => ?_⟩
      rcases List.mem_append.mp (handlings ▸ member) with known | new
      · exact settled other known
      · obtain rfl := List.mem_singleton.mp new
        exact entered ▸ entrance_admitted terminating _
  | begun found middleware wrapped =>
      refine ⟨inTime.log, fun stopped => ?_⟩
      have halted := inTime.halted stopped
      exact halted.set (admission_admitted halted.terminating) rfl rfl
  | @answered id fulfilled handling next found answers =>
      have member := List.mem_of_getElem? found
      refine ⟨guarded_append.mpr ⟨inTime.log, guarded_of_forall ?_⟩, fun stopped => ?_⟩
      · rintro earlier since notice added ⟨other, rfl⟩ stopped
        obtain ⟨deed, done, same⟩ := List.mem_map.mp added
        obtain ⟨-, rfl⟩ := Notice.deed.inj same
        rcases List.mem_append.mp stopped with stopped | stopped
        · have passed := (inTime.halted stopped).settled _ member
          exact (answer_not_admitted answers passed).2 done
        · simpa using since stopped
      · have halted := inTime.halted (by simpa [State.moveOn] using stopped)
        exact halted.set (answer_not_admitted answers (halted.settled _ member)).1 rfl rfl

/-- Where every call of `stop` finds no message between the check of the manager and its handler,
and neither `pause` nor `resume` is called after one, no handler is called after `stop`. -/
theorem startsInTime_of_stopsBetween {events : List Event} {final : State}
    (between : (system setup).Along StopsBetween events .initial)
    (execution : (system setup).run events .initial = some final) :
    Guarded StartsInTime final.log := by
  have start : InTime State.initial := ⟨guarded_nil _, by simp [State.initial]⟩
  have preserved : ∀ before event after, InTime before → StopsBetween before event →
      (system setup).step before event = some after → InTime after :=
    fun _ _ _ inTime guard stepped => inTime_step inTime guard stepped
  exact (System.invariant_run preserved start between execution).log

/-- A runner with the task `orders` and a concurrency of one. -/
def orders : Setup Unit where
  registry := Registry.empty.addNewTask { name := "orders", topic := "orders", subscribe := () }
  waitToCommit := none
  hasMiddleware := false
  concurrency := 1
  arrival := ⟨0, fun _ => none, fun _ => ""⟩

/-- A message of the topic is received and admitted. -/
def receiving : List Event :=
  [.start ["orders"], .fetch 0 0, .dequeue 0 0 (some [⟨some (.obj []), some "1"⟩]), .take 0 0 0]

/-- Nothing is late where `stop` is called while the handler runs. -/
theorem startsInTime_handled :
    ∃ final, (system orders).run
        (receiving ++ [.answer 0 true, .answer 0 true, .stop, .answer 0 true]) .initial =
          some final ∧
      Guarded StartsInTime final.log := by
  have between : (system orders).Along StopsBetween
      (receiving ++ [.answer 0 true, .answer 0 true, .stop, .answer 0 true]) .initial := by
    decide
  exact ⟨_, rfl, startsInTime_of_stopsBetween between rfl⟩

/-- A handler starts after `stop` when the message was waiting for a resource. -/
theorem orders_late : ¬ NeverLate orders := by
  intro never
  have late := never (receiving ++ [.stop, .answer 0 true, .answer 0 true]) _ rfl
  exact late [.stop, .deed 0 .delete] (.deed 0 .subscribe) [] rfl ⟨0, rfl⟩ (by simp)

end Polling

end Steveo
