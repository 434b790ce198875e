import Steveo.Workflow.Confinement

/-!
# The record of a failure

The error of a failed step is stored in the transaction that also rolls the execution back.  This
file says when the error is still on record once the transaction has settled.
-/

namespace Steveo

open Steveo.Action Engine

namespace Workflow

/-- The step before the first one with a name. -/
def previousStep (workflow : Workflow) (stepName : String) : Option Step :=
  match workflow.getStepIndex stepName with
  | some (index + 1) => workflow.steps[index]?
  | _ => none

/-- How many rounds a rollback takes from a step on, if their number is bounded. -/
def rollbackRounds (workflow : Workflow) : Nat → Option Step → Nat
  | 0, _ | _ + 1, none => 0
  | rounds + 1, some cursor =>
      workflow.rollbackRounds rounds (workflow.previousStep cursor.name) + 1

end Workflow

/-- The rollback function of a step, if it has one, resolves at every one of some successive
calls. -/
def Step.Undoes (step : Step) (state : WorkflowState) (tick rounds : Nat) : Prop :=
  ∀ rollback, step.rollback = some rollback → ∀ round < rounds,
    rollback (tick + round) state = .ok ()

namespace Workflow

variable {workflow : Workflow}

/-- A message that reaches the row of an execution, which it continues or begins; the engine has
then asked outside code a number of times. -/
inductive Attempt (workflow : Workflow) (session : Session) (payload : Fields) :
    String → WorkflowState → Nat → Prop
  | continues {workflowId : String} {row : WorkflowState}
      (carries : payload.get "workflowId" = some (.str workflowId)) (named : workflowId ≠ "")
      (stored : session.table workflowId = some row) :
      Attempt workflow session payload workflowId row session.tick
  | begins {firstStep : Step} (anonymous : nullish (payload.get "workflowId") = true)
      (first : workflow.steps[0]? = some firstStep)
      (unused : session.table (workflow.freshId session) = none) :
      Attempt workflow session payload (workflow.freshId session)
        (workflow.initialRow (workflow.freshId session) firstStep payload) (session.tick + 1)

/-- The failure of a step is on record after a message was handled, and no later message runs the
step again. -/
def KeepsFailure (workflow : Workflow) (session : Session) (payload : Fields) (workflowId : String)
    (step : Step) : Prop :=
  (∃ row, (workflow.handle session payload).table workflowId = some row ∧
    ∃ error ∈ row.errorList, error.identifier = step.name) ∧
  ∀ later : List Fields,
    (executions (later.foldl workflow.handle (workflow.handle session payload)).log).count
        (workflowId, step.name) =
      (executions (workflow.handle session payload).log).count (workflowId, step.name)

/-! ## The rounds of a rollback -/

theorem getPreviousStep_of_mem {step : Step} (member : step ∈ workflow.steps) :
    workflow.getPreviousStep step.name = pure (workflow.previousStep step.name) := by
  have known : workflow.getStepIndex step.name ≠ none := by
    rw [getStepIndex, Ne, List.findIdx?_eq_none_iff]
    intro unnamed
    simpa using unnamed step member
  rw [getPreviousStep, previousStep]
  cases position : workflow.getStepIndex step.name with
  | none => exact absurd position known
  | some index => cases index <;> rfl

theorem previousStep_mem {stepName : String} {step : Step}
    (previous : workflow.previousStep stepName = some step) : step ∈ workflow.steps := by
  rw [previousStep] at previous
  split at previous
  · exact List.mem_of_getElem? previous
  · cases previous

section Rounds

variable {context : ExecuteContext} {session : Session}

/-- A round in which the rollback function resolves returns, and the row is still there. -/
theorem exec_guardedRound_resolved (member : context.step ∈ workflow.steps)
    (stored : ∃ row, session.table context.workflowId = some row)
    (resolves : ∀ rollback, context.step.rollback = some rollback →
      rollback session.tick context.state = .ok ()) :
    ∃ after, exec (workflow.guardedRound context) session = (.ok (), after) ∧
      (∃ row, after.table context.workflowId = some row) ∧
        after.tick = session.tick + if context.step.rollback.isSome then 1 else 0 := by
  obtain ⟨row, found⟩ := stored
  obtain ⟨middle, calls, table, tick⟩ : ∃ middle,
      exec (callRollback context.workflowId context.step context.state) session =
        (.ok (), middle) ∧ middle.table = session.table ∧
        middle.tick = session.tick + if context.step.rollback.isSome then 1 else 0 := by
    cases undo : context.step.rollback with
    | none => exact ⟨session, by simp only [callRollback, undo, exec_pure], rfl, rfl⟩
    | some rollback =>
        refine ⟨(session.logged (.rollback context.workflowId context.step.name)).ticked, ?_, rfl,
          rfl⟩
        simp only [callRollback, undo, exec_bind, exec_record, exec_outside, Session.logged_tick,
          resolves rollback undo, exec_ofExcept_ok]
  have found' : middle.table context.workflowId = some row := by rw [table, found]
  obtain ⟨after, moves, kept, ticks⟩ : ∃ after,
      exec (workflow.rollbackRound context) session = (.ok (), after) ∧
        (∃ row, after.table context.workflowId = some row) ∧ after.tick = middle.tick := by
    rw [rollbackRound, exec_bind_ok calls, getPreviousStep_of_mem member,
      exec_bind_ok (exec_pure _ _)]
    cases workflow.previousStep context.step.name with
    | none =>
        exact ⟨_, WorkflowRepository.exec_updateWorkflowCompleted middle found',
          ⟨_, Function.update_self _ _ _⟩, rfl⟩
    | some previous =>
        exact ⟨_, WorkflowRepository.exec_rollbackStepExecute middle found' previous.name,
          ⟨_, Function.update_self _ _ _⟩, rfl⟩
  refine ⟨after, ?_, kept, ticks.trans tick⟩
  simp only [guardedRound, exec_bind, exec_attempt, moves, exec_pure]

/-- A round in which the rollback function throws throws. -/
theorem exec_guardedRound_threw {rollback : Nat → WorkflowState → Except String Unit}
    (undo : context.step.rollback = some rollback) {thrown : String}
    (throws : rollback session.tick context.state = .error thrown) :
    ∃ message, (exec (workflow.guardedRound context) session).1 = .error message := by
  have rounds : exec (workflow.rollbackRound context) session =
      (.error thrown,
        (session.logged (.rollback context.workflowId context.step.name)).ticked) := by
    simp only [rollbackRound, callRollback, undo, exec_bind, exec_record, exec_outside,
      Session.logged_tick, throws, exec_ofExcept_error]
  rw [guardedRound, exec_bind_ok (exec_attempt _ _), rounds]
  simp only [exec_bind]
  rcases exec (WorkflowRepository.storeExecuteError context.workflowId context.state.current thrown)
    (session.logged (.rollback context.workflowId context.step.name)).ticked with ⟨outcome, after⟩
  cases outcome with
  | ok _ => exact ⟨thrown, rfl⟩
  | error message => exact ⟨message, rfl⟩

/-- A rollback returns exactly if the rollback function resolves in all of its rounds. -/
theorem rollbackLoop_ok_iff (member : context.step ∈ workflow.steps) (rounds : Nat)
    (cursor : Option Step) (known : ∀ step ∈ cursor, step ∈ workflow.steps)
    (stored : ∃ row, session.table context.workflowId = some row) :
    (exec (workflow.rollbackLoop context rounds cursor) session).1 = .ok () ↔
      context.step.Undoes context.state session.tick (workflow.rollbackRounds rounds cursor) := by
  induction rounds generalizing cursor session with
  | zero =>
      refine iff_of_true (by cases cursor <;> rfl) fun _ _ _ before => ?_
      exact absurd before (Nat.not_lt_zero _)
  | succ rounds induction =>
      cases cursor with
      | none =>
          exact iff_of_true rfl fun _ _ _ before => absurd before (Nat.not_lt_zero _)
      | some current =>
          have present : current ∈ workflow.steps := known current rfl
          have later : ∀ step ∈ workflow.previousStep current.name, step ∈ workflow.steps :=
            fun step previous => previousStep_mem previous
          by_cases resolves : ∀ rollback, context.step.rollback = some rollback →
              rollback session.tick context.state = .ok ()
          · obtain ⟨middle, returned, kept, tick⟩ :=
              exec_guardedRound_resolved member stored resolves
            rw [rollbackLoop, exec_bind_ok returned, getPreviousStep_of_mem present,
              exec_bind_ok (exec_pure _ _), induction _ later kept, rollbackRounds]
            constructor
            · intro undoes rollback undo round before
              cases round with
              | zero => exact resolves rollback undo
              | succ round =>
                  have next := undoes rollback undo round (Nat.lt_of_succ_lt_succ before)
                  rwa [tick, undo, Option.isSome_some, if_pos rfl, Nat.add_right_comm] at next
            · intro undoes rollback undo round before
              have next := undoes rollback undo (round + 1) (Nat.succ_lt_succ before)
              rwa [tick, undo, Option.isSome_some, if_pos rfl, Nat.add_right_comm]
          · push Not at resolves
            obtain ⟨rollback, undo, throws⟩ := resolves
            refine iff_of_false ?_ fun undoes => throws ?_
            · cases answer : rollback session.tick context.state with
              | ok _ => exact absurd answer throws
              | error thrown =>
                  obtain ⟨message, threw⟩ := exec_guardedRound_threw undo answer
                  rw [rollbackLoop, exec_bind]
                  rcases round : exec (workflow.guardedRound context) session with
                    ⟨outcome, after⟩
                  rw [round] at threw
                  obtain rfl : outcome = .error message := threw
                  intro returned
                  cases returned
            · exact undoes rollback undo 0 (Nat.succ_pos _)

end Rounds

/-! ## The transaction of a failed step -/

variable {session : Session} {payload : Fields} {workflowId : String} {row : WorkflowState}
  {tick : Nat} {step : Step}

/-- The session in which the rollback of a failed step begins. -/
def recordedFailure (session : Session) (context : ExecuteContext) (thrown : String) : Session :=
  ((((session.logged (.execute context.workflowId context.step.name context.payload)).ticked.logged
    (.emit "workflow_step_failure")).logged
      (.storeExecuteError context.workflowId context.state.current thrown)).stored
        context.workflowId (some (context.state.withError context.state.current thrown)))

theorem Executes.exec_continueFrom_threw (executes : workflow.Executes row step)
    (stored : session.table workflowId = some row) {thrown : String}
    (threw : step.execute session.tick payload = .error thrown) :
    exec (workflow.continueFrom workflowId payload row) session =
      exec (workflow.executeRollback ⟨workflowId, payload, step, row⟩)
        (recordedFailure session ⟨workflowId, payload, step, row⟩ thrown) := by
  let context : ExecuteContext := ⟨workflowId, payload, step, row⟩
  let notified : Session := (session.logged (.execute workflowId step.name payload)).ticked.logged
    (.emit "workflow_step_failure")
  have stores := WorkflowRepository.exec_storeExecuteError notified stored row.current thrown
  rw [executes.exec_continueFrom, executeNextStep, exec_bind_ok (exec_attempt _ _),
    exec_runStep_thrown context executes.service executes.ordered threw]
  simp only [failStep]
  rw [exec_bind_ok (exec_emit _ _), exec_bind_ok stores]
  rfl

/-- A message that reaches a row handles it in one transaction. -/
theorem Attempt.settles (attempt : workflow.Attempt session payload workflowId row tick)
    (steps : workflow.steps ≠ []) :
    ∃ opened before, opened.table = session.table ∧ before.table workflowId = some row ∧
      before.tick = tick ∧ workflow.handle session payload =
        settled opened (exec (workflow.continueFrom workflowId payload row) before) := by
  cases attempt with
  | continues carries named stored =>
      exact ⟨session, resumed session workflowId, rfl, stored, rfl,
        subscribe_stored carries named steps stored⟩
  | begins anonymous first unused =>
      exact ⟨session.ticked, _, rfl, begun_table _ _ _ _ _, rfl,
        subscribe_begun anonymous first unused⟩

/-- Before a message reaches a row without errors, none of the execution is on record. -/
theorem Attempt.clean (attempt : workflow.Attempt session payload workflowId row tick)
    (clean : row.errorList = []) {stored : WorkflowState}
    (found : session.table workflowId = some stored) : stored.errorList = [] := by
  cases attempt with
  | continues carries named present =>
      obtain rfl := Option.some.inj (present.symm.trans found)
      exact clean
  | begins anonymous first unused => cases unused.symm.trans found

/-- A session keeps the record of a failure, and the step is not run again, whatever messages
follow. -/
theorem count_executions_of_failed {failed : Session} {stored : WorkflowState}
    (found : failed.table workflowId = some stored) (errors : stored.errorList ≠ [])
    (later : List Fields) (name : String) :
    (executions (later.foldl workflow.handle failed).log).count (workflowId, name) =
      (executions failed.log).count (workflowId, name) := by
  have barred : Barred workflowId failed (later.foldl workflow.handle failed) :=
    handles_barred later ⟨stored, found, errors⟩
  obtain ⟨calls, log, others⟩ := barred.log
  have absent : (workflowId, name) ∉ executions calls := by
    intro member
    obtain ⟨call, listed, runs⟩ := List.mem_filterMap.mp member
    exact others call listed _ runs rfl
  rw [log, executions_append, List.count_append, List.count_eq_zero.mpr absent, Nat.add_zero]

/-- When a step throws, its failure is on record after the message was handled, and no later
message runs the step again, exactly if its rollback function resolves in every round of the
rollback. -/
theorem keepsFailure_iff (attempt : workflow.Attempt session payload workflowId row tick)
    (executes : workflow.Executes row step) {thrown : String}
    (threw : step.execute tick payload = .error thrown) :
    workflow.KeepsFailure session payload workflowId step ↔
      step.Undoes row (tick + 1)
        (workflow.rollbackRounds workflow.steps.length (some step)) := by
  have member : step ∈ workflow.steps := List.mem_of_find?_eq_some executes.found
  obtain ⟨opened, before, table, found, clock, handled⟩ :=
    attempt.settles (List.ne_nil_of_mem member)
  let context : ExecuteContext := ⟨workflowId, payload, step, row⟩
  have failed : (recordedFailure before context thrown).table workflowId =
      some (row.withError row.current thrown) := Function.update_self _ _ _
  have loops : (exec (workflow.executeRollback context)
      (recordedFailure before context thrown)).1 = .ok () ↔ step.Undoes row
        (recordedFailure before context thrown).tick
        (workflow.rollbackRounds workflow.steps.length (some step)) :=
    rollbackLoop_ok_iff member workflow.steps.length (some step)
      (fun candidate same => Option.some.inj same ▸ member) ⟨_, failed⟩
  have ticks : (recordedFailure before context thrown).tick = tick + 1 := congrArg (· + 1) clock
  have kept : Barred workflowId (recordedFailure before context thrown)
      (exec (workflow.executeRollback context) (recordedFailure before context thrown)).2 :=
    Barred.executeRollback workflow context _
  rw [executes.exec_continueFrom_threw found (by rwa [clock])] at handled
  rw [← ticks, ← loops]
  revert handled kept
  rcases exec (workflow.executeRollback context) (recordedFailure before context thrown) with
    ⟨outcome, after⟩
  intro handled kept
  cases outcome with
  | ok _ =>
      refine iff_of_true ?_ rfl
      obtain ⟨changed, found', errors⟩ := kept.row _ failed
      have entry : (⟨row.current, thrown⟩ : ExecuteError) ∈ changed.errorList :=
        errors.subset (by simp)
      have committed : (workflow.handle session payload).table workflowId = some changed := by
        rw [handled]
        exact found'
      exact ⟨⟨changed, committed, _, entry, executes.name.symm⟩, fun later =>
        count_executions_of_failed committed (List.ne_nil_of_mem entry) later step.name⟩
  | error message =>
      refine iff_of_false ?_ nofun
      rintro ⟨⟨stored, committed, error, entry, -⟩, -⟩
      have restored : session.table workflowId = some stored := by
        rw [handled] at committed
        exact table ▸ committed
      rw [attempt.clean executes.clean restored] at entry
      cases entry

/-- A step that throws and whose rollback function gives an answer. -/
def failingStep (answer : Except String Unit) : Step where
  name := "a"
  execute := fun _ _ => .error "Error: failed"
  rollback := some fun _ _ => answer

/-- A message that begins an execution of the step. -/
theorem failingStep_attempt (answer : Except String Unit) :
    (accepting [failingStep answer]).Attempt ⟨fun _ => none, 0, []⟩ [] "flow-1"
      ((accepting [failingStep answer]).initialRow "flow-1" (failingStep answer) []) 1 :=
  .begins rfl rfl rfl

theorem failingStep_executes (answer : Except String Unit) :
    (accepting [failingStep answer]).Executes
      ((accepting [failingStep answer]).initialRow "flow-1" (failingStep answer) [])
      (failingStep answer) :=
  ⟨by simp [initialRow, failingStep], rfl, rfl, rfl, rfl⟩

/-- Where the rollback function resolves, the failure stays on record. -/
theorem failingStep_recorded :
    (accepting [failingStep (.ok ())]).KeepsFailure ⟨fun _ => none, 0, []⟩ [] "flow-1"
      (failingStep (.ok ())) := by
  refine (keepsFailure_iff (failingStep_attempt _) (failingStep_executes _) rfl).mpr ?_
  intro rollback undo round before
  obtain rfl := Option.some.inj undo
  rfl

/-- Where it throws, nothing of the execution is on record, and the next message runs the step
again. -/
theorem failingStep_forgotten :
    ¬ (accepting [failingStep (.error "Error: stuck")]).KeepsFailure ⟨fun _ => none, 0, []⟩ []
        "flow-1" (failingStep (.error "Error: stuck")) ∧
      executions ([[], []].foldl (accepting [failingStep (.error "Error: stuck")]).handle
        ⟨fun _ => none, 0, []⟩).log = [("flow-1", "a"), ("flow-1", "a")] := by
  refine ⟨?_, rfl⟩
  rintro ⟨⟨row, found, -⟩, -⟩
  cases found

end Workflow

end Steveo
