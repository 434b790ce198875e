import Mathlib.Logic.Function.Iterate
import Steveo.Library.Simulation
import Steveo.Workflow.FailureRecord
import Steveo.Workflow.Rollback

/-!
# A workflow as a saga

An execution stands at one of its steps, may have failed and may be marked as completed.  Every
message that is handled moves it along a small machine or leaves it where it is.  The machine has
no way back from a failure, and goes round in no circle.
-/

namespace Steveo

open Steveo.Action Engine

namespace Saga

/-- How far an execution has come. -/
structure Standing where
  position : Nat
  failed : Bool
  completed : Bool
  deriving DecidableEq

/-- Going back one step; at the first step the execution is marked as completed. -/
def Standing.unwound (standing : Standing) : Standing :=
  match standing.position with
  | 0 => { standing with completed := true }
  | position + 1 => { standing with position }

/-- What one message does to an execution of a workflow with a number of steps.  An execution
whose rows are deleted at the end has no standing any more. -/
inductive Turn (length : Nat) (deletes : Bool) : Standing → Option Standing → Prop
  | advanced {position : Nat} {completed : Bool} (inside : position + 1 < length) :
      Turn length deletes ⟨position, false, completed⟩ (some ⟨position + 1, false, completed⟩)
  | finished {position : Nat} {completed : Bool} (last : position + 1 = length) :
      Turn length deletes ⟨position, false, completed⟩
        (if deletes then none else some ⟨position, false, true⟩)
  | failed {position : Nat} {completed : Bool} (inside : position < length) :
      Turn length deletes ⟨position, false, completed⟩
        (some (Standing.unwound ⟨position, true, completed⟩))
  /-- The message for the second step could not be published. -/
  | stranded {completed : Bool} (inside : 1 < length) :
      Turn length deletes ⟨0, false, completed⟩ (some ⟨1, true, true⟩)
  | undone {position : Nat} {completed : Bool} :
      Turn length deletes ⟨position, true, completed⟩
        (some (Standing.unwound ⟨position, true, completed⟩))

/-- A message either finds an execution or begins one. -/
def Move (length : Nat) (deletes : Bool) (before after : Option Standing) : Prop :=
  Turn length deletes (before.getD ⟨0, false, false⟩) after

/-- An execution that is there is moved. -/
def Continues (length : Nat) (deletes : Bool) (before after : Option Standing) : Prop :=
  ∃ standing, before = some standing ∧ Turn length deletes standing after

/-- How often the standing of an execution can still change. -/
def rank (length : Nat) : Option Standing → Nat
  | none => 0
  | some ⟨position, failed, completed⟩ =>
      (if failed then position else length - 1 - position + max (length - 1) 1) +
        (!completed).toNat

/-- A turn that changes anything goes down the ranking. -/
theorem Turn.descends {length : Nat} {deletes : Bool} {before : Standing}
    {after : Option Standing} (turn : Turn length deletes before after)
    (changed : after ≠ some before) : rank length after < rank length (some before) := by
  cases turn with
  | advanced inside =>
      simp only [rank, Bool.false_eq_true, if_false]
      omega
  | @finished position completed last =>
      cases deletes with
      | true =>
          simp only [rank, Bool.false_eq_true, if_false, if_true]
          omega
      | false =>
          cases completed with
          | true => exact absurd rfl changed
          | false => simp [rank]
  | @failed position completed inside =>
      cases position with
      | zero =>
          simp only [Standing.unwound, rank, Bool.false_eq_true, if_false, if_true, Bool.not_true,
            Bool.toNat_false]
          omega
      | succ position =>
          simp only [Standing.unwound, rank, Bool.false_eq_true, if_false, if_true]
          omega
  | stranded inside =>
      simp only [rank, Bool.false_eq_true, if_false, if_true, Bool.not_true, Bool.toNat_false]
      omega
  | @undone position completed =>
      cases position with
      | zero =>
          cases completed with
          | true => exact absurd rfl changed
          | false => simp [Standing.unwound, rank]
      | succ position =>
          simp only [Standing.unwound, rank, if_true]
          omega

/-- An execution that has failed was never anything but failed afterwards. -/
theorem Turn.failed_of_failed {length : Nat} {deletes : Bool} {before : Standing}
    {after : Option Standing} (turn : Turn length deletes before after)
    (failed : before.failed = true) : after = some before.unwound := by
  cases turn with
  | undone => rfl
  | _ => cases failed

/-- Going back a number of times. -/
theorem unwound_iterate (moves : Nat) (standing : Standing) :
    Standing.unwound^[moves] standing =
      { standing with
        position := standing.position - moves
        completed := standing.completed || decide (standing.position < moves) } := by
  induction moves generalizing standing with
  | zero => simp
  | succ moves induction =>
      obtain ⟨position, failed, completed⟩ := standing
      rw [Function.iterate_succ_apply, induction]
      cases position with
      | zero => simp [Standing.unwound]
      | succ position =>
          simp only [Standing.unwound, Nat.add_sub_add_right]
          exact congrArg (fun flag => Standing.mk (position - moves) failed (completed || flag))
            (decide_eq_decide.mpr (by omega))

end Saga

namespace Workflow

/-- The standing of the execution that a row belongs to, if its current step is one of the
workflow's. -/
def standing (workflow : Workflow) (row : WorkflowState) : Option Saga.Standing :=
  (workflow.getStepIndex row.current).map fun position =>
    { position, failed := !row.errorList.isEmpty, completed := row.completed }

/-- The standing of an execution. -/
def saga (workflow : Workflow) (workflowId : String) (session : Session) : Option Saga.Standing :=
  (session.table workflowId).bind workflow.standing

/-- Messages of any kind and in any order. -/
def messages (workflow : Workflow) : System Session Fields :=
  ⟨fun session payload => some (workflow.handle session payload)⟩

/-- The row after the rollback of the step at an index. -/
def unwoundRow (workflow : Workflow) (row : WorkflowState) : Nat → WorkflowState
  | 0 => { row with completed := true }
  | index + 1 => { row with current := (workflow.steps[index]?.elim row.current Step.name) }

variable {workflow : Workflow}

theorem standing_eq {index : Nat} {step : Step} (first : workflow.FirstNamed index step)
    (row : WorkflowState) (name : step.name = row.current) :
    workflow.standing row = some ⟨index, !row.errorList.isEmpty, row.completed⟩ := by
  rw [standing, ← name, first.getStepIndex, Option.map_some]

/-- The standing of the row that the rollback of a failed step leaves. -/
theorem standing_unwoundRow (distinct : workflow.DistinctNames) {index : Nat} {step : Step}
    (at_index : workflow.steps[index]? = some step) {row : WorkflowState}
    (failed : row.errorList ≠ []) (stays : index = 0 → step.name = row.current) :
    workflow.standing (workflow.unwoundRow row index) =
      some (Saga.Standing.unwound ⟨index, true, row.completed⟩) := by
  have failing : (!row.errorList.isEmpty) = true := by simpa using failed
  cases index with
  | zero =>
      rw [standing_eq (distinct.firstNamed at_index) (workflow.unwoundRow row 0) (stays rfl)]
      exact congrArg (fun flag => some (Saga.Standing.mk 0 flag true)) failing
  | succ index =>
      obtain ⟨bound, -⟩ := List.getElem?_eq_some_iff.mp at_index
      have previous := List.getElem?_eq_getElem (l := workflow.steps) (i := index) (by omega)
      rw [standing_eq (distinct.firstNamed previous) (workflow.unwoundRow row (index + 1))
        (by simp [unwoundRow, previous])]
      exact congrArg (fun flag => some (Saga.Standing.mk index flag row.completed)) failing

/-! ## The rows that a rollback leaves -/

/-- Actions that leave the rows alone. -/
theorem sameTable : EffectRelation fun before after : Session => after.table = before.table where
  refl _ := rfl
  trans first second := second.trans first

theorem callRollback_table (workflowId : String) (step : Step) (state : WorkflowState)
    (session : Session) :
    (exec (callRollback workflowId step state) session).2.table = session.table := by
  rw [callRollback]
  cases step.rollback with
  | none => rfl
  | some rollback =>
      exact sameTable.bind (fun _ => rfl) (fun _ => sameTable.bind (fun _ => rfl)
        fun _ => sameTable.ofExcept _) session

theorem publishInternal_table (workflow : Workflow) (message : Published) (session : Session) :
    (exec (workflow.publishInternal message) session).2.table = session.table := by
  refine sameTable.bind (EffectRelation.attempt ?_) (fun outcome => ?_) session
  · refine sameTable.bind (fun _ => rfl) fun ready => ?_
    refine sameTable.bind (sameTable.ofExcept ready) fun _ => ?_
    refine sameTable.bind ?_ fun _ => fun _ => rfl
    exact sameTable.bind (fun _ => rfl) fun sent => sameTable.bind (fun _ => rfl) fun _ =>
      sameTable.bind (sameTable.ofExcept sent) fun _ => fun _ => rfl
  · cases outcome with
    | ok _ => exact sameTable.pure ()
    | error thrown => exact sameTable.bind (fun _ => rfl) fun _ => sameTable.throw thrown

/-- A round that returns leaves the row of its step unwound. -/
theorem guardedRound_row (distinct : workflow.DistinctNames) {context : ExecuteContext}
    {index : Nat} (at_index : workflow.steps[index]? = some context.step)
    {session after : Session} {row : WorkflowState}
    (found : session.table context.workflowId = some row)
    (returned : exec (workflow.guardedRound context) session = (.ok (), after)) :
    after.table context.workflowId = some (workflow.unwoundRow row index) := by
  obtain ⟨outcome, middle, observed, rest⟩ := exec_bind_eq_ok returned
  cases outcome with
  | error thrown =>
      obtain ⟨_, _, _, threw⟩ := exec_bind_eq_ok rest
      cases congrArg Prod.fst threw
  | ok _ =>
      obtain rfl : middle = after := congrArg Prod.snd rest
      have round := exec_of_attempt observed
      cases index with
      | zero =>
          rw [rollbackRound_first distinct at_index] at round
          obtain ⟨_, called, calls, completes⟩ := exec_bind_eq_ok round
          have found' : called.table context.workflowId = some row := by
            rw [← found, ← callRollback_table context.workflowId context.step context.state session,
              calls]
          rw [WorkflowRepository.exec_updateWorkflowCompleted called found'] at completes
          rw [← (Prod.mk.inj completes).2]
          exact Function.update_self _ _ _
      | succ index =>
          obtain ⟨bound, -⟩ := List.getElem?_eq_some_iff.mp at_index
          have previous := List.getElem?_eq_getElem (l := workflow.steps) (i := index) (by omega)
          rw [rollbackRound_later distinct at_index previous] at round
          obtain ⟨_, called, calls, moves⟩ := exec_bind_eq_ok round
          have found' : called.table context.workflowId = some row := by
            rw [← found, ← callRollback_table context.workflowId context.step context.state session,
              calls]
          rw [WorkflowRepository.exec_rollbackStepExecute called found'] at moves
          rw [← (Prod.mk.inj moves).2, unwoundRow, previous]
          exact Function.update_self _ _ _

/-- Further rounds change nothing more. -/
theorem unwoundRow_unwoundRow (row : WorkflowState) (index : Nat) :
    workflow.unwoundRow (workflow.unwoundRow row index) index = workflow.unwoundRow row index := by
  cases index with
  | zero => rfl
  | succ index =>
      cases previous : workflow.steps[index]? with
      | none => simp [unwoundRow, previous]
      | some step => simp [unwoundRow, previous]

/-- A loop that returns after at least one round leaves the row unwound once. -/
theorem rollbackLoop_row (distinct : workflow.DistinctNames) {context : ExecuteContext}
    {index : Nat} (at_index : workflow.steps[index]? = some context.step) {rounds : Nat}
    {current : Step} {session after : Session} {row : WorkflowState}
    (found : session.table context.workflowId = some row)
    (returned : exec (workflow.rollbackLoop context (rounds + 1) (some current)) session =
      (.ok (), after)) :
    after.table context.workflowId = some (workflow.unwoundRow row index) := by
  induction rounds generalizing current session row with
  | zero =>
      obtain ⟨_, middle, round, rest⟩ := exec_bind_eq_ok returned
      obtain ⟨cursor, later, previous, loops⟩ := exec_bind_eq_ok rest
      have same := getPreviousStep_preserves sameTable workflow current.name middle
      rw [previous] at same
      have ended : later = after := by
        cases cursor <;> exact congrArg Prod.snd loops
      rw [← ended, same]
      exact guardedRound_row distinct at_index found round
  | succ rounds induction =>
      obtain ⟨_, middle, round, rest⟩ := exec_bind_eq_ok returned
      obtain ⟨cursor, later, previous, loops⟩ := exec_bind_eq_ok rest
      have same := getPreviousStep_preserves sameTable workflow current.name middle
      rw [previous] at same
      have found' : later.table context.workflowId = some (workflow.unwoundRow row index) := by
        rw [same]
        exact guardedRound_row distinct at_index found round
      cases cursor with
      | none =>
          obtain rfl : later = after := congrArg Prod.snd loops
          exact found'
      | some earlier =>
          rw [induction found' loops, unwoundRow_unwoundRow]

theorem executeRollback_row (distinct : workflow.DistinctNames) (context : ExecuteContext)
    {index : Nat} (at_index : workflow.steps[index]? = some context.step)
    {session after : Session} {row : WorkflowState}
    (found : session.table context.workflowId = some row)
    (returned : exec (workflow.executeRollback context) session = (.ok (), after)) :
    after.table context.workflowId = some (workflow.unwoundRow row index) := by
  obtain ⟨bound, -⟩ := List.getElem?_eq_some_iff.mp at_index
  obtain ⟨rounds, length⟩ := Nat.exists_eq_succ_of_ne_zero (Nat.ne_of_gt (Nat.zero_lt_of_lt bound))
  rw [executeRollback, length] at returned
  exact rollbackLoop_row distinct at_index found returned

/-- A failure that is dealt with leaves a row with an error, unwound. -/
theorem failStep_row (distinct : workflow.DistinctNames) (context : ExecuteContext)
    {index : Nat} (at_index : workflow.steps[index]? = some context.step)
    {session after : Session} {row : WorkflowState} {thrown : String}
    (found : session.table context.workflowId = some row)
    (returned : exec (workflow.failStep context thrown) session = (.ok (), after)) :
    after.table context.workflowId =
      some (workflow.unwoundRow (row.withError context.state.current thrown) index) := by
  have stores := WorkflowRepository.exec_storeExecuteError
    (session.logged (.emit "workflow_step_failure")) found context.state.current thrown
  rw [failStep, exec_bind_ok (exec_emit _ _), exec_bind_ok stores] at returned
  exact executeRollback_row distinct context at_index (Function.update_self _ _ _) returned

/-! ## One message -/

/-- The standing that a failed execution is left with. -/
theorem standing_failStep (distinct : workflow.DistinctNames) {index : Nat} {step : Step}
    (at_index : workflow.steps[index]? = some step) {row : WorkflowState}
    (stays : index = 0 → step.name = row.current) (identifier thrown : String) :
    workflow.standing (workflow.unwoundRow (row.withError identifier thrown) index) =
      some (Saga.Standing.unwound ⟨index, true, row.completed⟩) :=
  standing_unwoundRow distinct at_index (by simp) stays

/-- The standing of an execution whose second step could not be told of the first one. -/
theorem standing_stranded (distinct : workflow.DistinctNames) {next : Step}
    (next_at : workflow.steps[1]? = some next) (row : WorkflowState) (identifier thrown : String) :
    workflow.standing (workflow.unwoundRow
      ({ row with current := next.name }.withError identifier thrown) 0) =
        some ⟨1, true, true⟩ := by
  let failed : WorkflowState := { row with current := next.name }.withError identifier thrown
  have errors : (!(workflow.unwoundRow failed 0).errorList.isEmpty) = true := by
    have recorded : (workflow.unwoundRow failed 0).errorList =
        row.errorList ++ [⟨identifier, thrown⟩] := rfl
    simp [recorded]
  rw [standing_eq (distinct.firstNamed next_at) (workflow.unwoundRow failed 0) rfl]
  exact congrArg (fun flag => some (Saga.Standing.mk 1 flag true)) errors

/-- The standing of an execution that has finished. -/
theorem saga_finished (distinct : workflow.DistinctNames) {index : Nat} {step : Step}
    (at_index : workflow.steps[index]? = some step) {row : WorkflowState}
    (name : step.name = row.current) (clean : row.errorList = []) {workflowId : String}
    {session : Session} {result : Option Json} :
    workflow.saga workflowId (workflow.finished session workflowId row result) =
      if workflow.options.deleteOnComplete then none else some ⟨index, false, true⟩ := by
  have cleared : (!(ranRow row result).errorList.isEmpty) = false := by
    have same : (ranRow row result).errorList = row.errorList := rfl
    simp [same, clean]
  rw [saga, finished]
  split
  · simp
  · rw [Session.stored_table, Function.update_self, Option.bind_some,
      standing_eq (distinct.firstNamed at_index)
        { ranRow row result with completed := true } name]
    exact congrArg (fun flag => some (Saga.Standing.mk index flag true)) cleared

/-- The standing of an execution whose next message has been published. -/
theorem saga_published (distinct : workflow.DistinctNames) {index : Nat} {next : Step}
    (next_at : workflow.steps[index]? = some next) {row : WorkflowState}
    (clean : row.errorList = []) {workflowId : String} {session : Session} {result : Option Json}
    {message : Published} :
    workflow.saga workflowId (published (moved session workflowId row result next) message) =
      some ⟨index, false, row.completed⟩ := by
  have cleared : (!(ranRow row result).errorList.isEmpty) = false := by
    have same : (ranRow row result).errorList = row.errorList := rfl
    simp [same, clean]
  have found : (published (moved session workflowId row result next) message).table workflowId =
      some { ranRow row result with current := next.name } := Function.update_self _ _ _
  rw [saga, found, Option.bind_some, standing_eq (distinct.firstNamed next_at)
    { ranRow row result with current := next.name } rfl]
  exact congrArg (fun flag => some (Saga.Standing.mk index flag row.completed)) cleared

/-- Where the message for the next step has not been sent, the execution fails, or it is stranded
behind its first step. -/
theorem turn_of_unsent (distinct : workflow.DistinctNames) {workflowId thrown : String}
    {payload : Fields} {row : WorkflowState} {index : Nat} {step next : Step} {result : Option Json}
    (at_index : workflow.steps[index]? = some step)
    (next_at : workflow.steps[index + 1]? = some next) {failing after : Session}
    (placed : failing.table workflowId = some { ranRow row result with current := next.name })
    (returned : exec (workflow.failStep
      ⟨workflowId, payload, step, row.withResult row.current result⟩ thrown) failing =
        (.ok (), after)) :
    Saga.Turn workflow.steps.length workflow.options.deleteOnComplete
      ⟨index, false, row.completed⟩ (workflow.saga workflowId after) := by
  rw [saga, failStep_row distinct ⟨workflowId, payload, step, row.withResult row.current result⟩
    at_index placed returned, Option.bind_some]
  cases index with
  | zero =>
      rw [standing_stranded distinct next_at]
      exact .stranded (List.getElem?_eq_some_iff.mp next_at).1
  | succ index =>
      rw [standing_failStep distinct at_index (by simp)]
      exact .failed (List.getElem?_eq_some_iff.mp at_index).1

/-- Running the current step of an execution is a turn, unless it is taken back. -/
theorem turn_of_executeNextStep (distinct : workflow.DistinctNames) {workflowId : String}
    {payload : Fields} {row : WorkflowState} {index : Nat} {step : Step}
    (at_index : workflow.steps[index]? = some step) (name : step.name = row.current)
    (clean : row.errorList = []) {session after : Session}
    (found : session.table workflowId = some row)
    (returned : exec (workflow.executeNextStep ⟨workflowId, payload, step, row⟩) session =
      (.ok (), after)) :
    Saga.Turn workflow.steps.length workflow.options.deleteOnComplete
      ⟨index, false, row.completed⟩ (workflow.saga workflowId after) := by
  let context : ExecuteContext := ⟨workflowId, payload, step, row⟩
  obtain ⟨bound, -⟩ := List.getElem?_eq_some_iff.mp at_index
  have fails : ∀ {failing : Session} {thrown : String},
      exec (workflow.failStep context thrown) failing = (.ok (), after) →
      failing.table workflowId = some row →
      Saga.Turn workflow.steps.length workflow.options.deleteOnComplete
        ⟨index, false, row.completed⟩ (workflow.saga workflowId after) := by
    intro failing thrown failed found
    rw [saga, failStep_row distinct context at_index found failed, Option.bind_some,
      standing_failStep distinct at_index fun _ => name]
    exact .failed bound
  rw [executeNextStep, exec_bind_ok (exec_attempt _ _)] at returned
  by_cases accepted : row.serviceId = workflow.options.serviceId ∧
      workflow.expectedOrder step row = true
  · obtain ⟨same, ordered⟩ := accepted
    cases resolved : step.execute session.tick payload with
    | error thrown =>
        rw [exec_runStep_thrown context same ordered resolved] at returned
        exact fails returned found
    | ok result =>
        rw [exec_runStep context found same ordered resolved] at returned
        have stored : (ran session context result).table workflowId = some (ranRow row result) :=
          Function.update_self _ _ _
        simp only at returned
        cases next_at : workflow.steps[index + 1]? with
        | none =>
            rw [exec_bind_ok (exec_attempt _ _),
              exec_publishNextStep_last (distinct.firstNamed at_index) next_at stored] at returned
            rw [← (Prod.mk.inj returned).2, saga_finished distinct at_index name clean]
            exact .finished (by have := List.getElem?_eq_none_iff.mp next_at; omega)
        | some next =>
            rw [exec_bind_ok (exec_attempt _ _),
              exec_publishNextStep_next (distinct.firstNamed at_index) next_at stored] at returned
            rcases publishInternal_cases workflow workflowId
                (workflow.stepMessage workflowId step.name result next)
                (moved (ran session context result) workflowId row result next) with
              sent | ⟨thrown, failing, threw, -⟩
            · rw [sent] at returned
              rw [← (Prod.mk.inj returned).2, saga_published distinct next_at clean]
              exact .advanced (List.getElem?_eq_some_iff.mp next_at).1
            · rw [threw] at returned
              have moved_row := workflow.publishInternal_table
                (workflow.stepMessage workflowId step.name result next)
                (moved (ran session context result) workflowId row result next)
              rw [threw] at moved_row
              have placed : failing.table workflowId =
                  some { ranRow row result with current := next.name } := by
                rw [moved_row]
                exact Function.update_self _ _ _
              exact turn_of_unsent distinct at_index next_at placed returned
  · have rejected : row.serviceId ≠ workflow.options.serviceId ∨
        workflow.expectedOrder step row = false := by
      rw [not_and_or] at accepted
      simpa using accepted
    obtain ⟨thrown, runs⟩ := exec_runStep_rejected context session rejected
    rw [runs] at returned
    exact fails returned found

/-- Continuing an execution is a turn, unless it is taken back. -/
theorem turn_of_continueFrom (distinct : workflow.DistinctNames) {workflowId : String}
    {payload : Fields} {row : WorkflowState} {session after : Session}
    (found : session.table workflowId = some row)
    (returned : exec (workflow.continueFrom workflowId payload row) session = (.ok (), after)) :
    ∃ standing, workflow.standing row = some standing ∧
      Saga.Turn workflow.steps.length workflow.options.deleteOnComplete standing
        (workflow.saga workflowId after) := by
  obtain ⟨_, _, checked, continues⟩ := exec_bind_eq_ok returned
  have same := sameTable.ensure (row.current != "")
    s!"Error: Workflow state was not found: {workflowId}" session
  rw [checked] at same
  cases current : workflow.steps.find? fun step => step.name == row.current with
  | none =>
      rw [current] at continues
      cases congrArg Prod.fst continues
  | some step =>
      rw [current] at continues
      obtain ⟨named, index, bound, at_index, -⟩ := List.find?_eq_some_iff_getElem.mp current
      have name : step.name = row.current := by simpa using named
      have at_index : workflow.steps[index]? = some step :=
        List.getElem?_eq_some_iff.mpr ⟨bound, at_index⟩
      refine ⟨_, standing_eq (distinct.firstNamed at_index) row name, ?_⟩
      by_cases clean : row.errorList = []
      · simp only [clean, List.isEmpty_nil, if_true] at continues
        simp only [clean, List.isEmpty_nil, Bool.not_true]
        exact turn_of_executeNextStep distinct at_index name clean (same ▸ found) continues
      · have failed : row.errorList.isEmpty = false := by simpa using clean
        simp only [failed, Bool.false_eq_true, if_false] at continues
        rw [saga, executeRollback_row distinct ⟨workflowId, payload, step, row⟩ at_index
          (same ▸ found) continues, Option.bind_some,
          standing_unwoundRow distinct at_index clean fun _ => name, failed]
        exact .undone

/-- A transaction that throws leaves the rows alone. -/
theorem settled_error {opened : Session} {result : Except String Unit × Session}
    (threw : ∀ after, result ≠ (.ok (), after)) : (settled opened result).table = opened.table := by
  obtain ⟨outcome, after⟩ := result
  cases outcome with
  | ok _ => exact absurd rfl (threw after)
  | error _ => rfl

/-- No execution has an empty identifier. -/
theorem exec_processPayload_unnamed (payload : Fields) (session after : Session) :
    exec (workflow.processPayload (.str "") payload) session ≠ (.ok (), after) := by
  intro returned
  rw [processPayload, storageKey, exec_bind_ok (exec_pure _ _)] at returned
  obtain ⟨_, middle, -, loads⟩ := exec_bind_eq_ok returned
  obtain ⟨_, _, loaded, -⟩ := exec_bind_eq_ok loads
  obtain ⟨_, _, checked, -⟩ := exec_bind_eq_ok loaded
  cases congrArg Prod.fst checked

/-- An identifier that is in use is not given to another execution. -/
theorem exec_processPayload_used {payload : Fields}
    (anonymous : nullish (payload.get "workflowId") = true) {workflowId : String}
    {session after : Session} {row : WorkflowState}
    (used : session.table workflowId = some row) :
    exec (workflow.processPayload (.str workflowId) payload) session ≠ (.ok (), after) := by
  intro returned
  rw [processPayload, storageKey, exec_bind_ok (exec_pure _ _)] at returned
  obtain ⟨_, _, initialises, -⟩ := exec_bind_eq_ok returned
  rw [initialise, truthy_of_nullish anonymous] at initialises
  cases head : workflow.steps.head? with
  | none =>
      rw [head] at initialises
      cases congrArg Prod.fst initialises
  | some firstStep =>
      rw [head] at initialises
      simp only [Bool.false_eq_true, if_false, WorkflowRepository.workflowInit, exec_bind,
        exec_record, exec_get, Session.logged_table, used, exec_throw] at initialises
      cases congrArg Prod.fst initialises

/-- A message that reaches no row leaves all rows alone. -/
theorem handle_attempts (session : Session) (payload : Fields) :
    (workflow.handle session payload).table = session.table ∨
      ∃ workflowId row tick, workflow.Attempt session payload workflowId row tick := by
  by_cases steps : workflow.steps = []
  · rw [handle_empty steps]
    exact .inl rfl
  obtain ⟨firstStep, others, nonempty⟩ := List.exists_cons_of_ne_nil steps
  by_cases anonymous : nullish (payload.get "workflowId") = true
  · cases used : session.table (workflow.freshId session) with
    | none => exact .inr ⟨_, _, _, .begins anonymous (by rw [nonempty]; rfl) used⟩
    | some row =>
        left
        rw [handle, subscribe_settled steps (exec_executionId_fresh anonymous session)]
        exact settled_error fun after => exec_processPayload_used anonymous used
  · cases carries : payload.get "workflowId" with
    | none => exact absurd (by rw [carries]; rfl) anonymous
    | some identifier =>
        have identified : exec (workflow.executionId payload) session =
            (.ok identifier, session) := by
          rw [executionId, carries]
          cases identifier with
          | null => exact absurd (by rw [carries]; rfl) anonymous
          | _ => rfl
        cases identifier with
        | str workflowId =>
            by_cases named : workflowId = ""
            · left
              subst named
              rw [handle, subscribe_settled steps identified]
              exact settled_error fun after => exec_processPayload_unnamed payload _ after
            · cases stored : session.table workflowId with
              | none =>
                  left
                  rw [handle, subscribe_absent carries named steps stored]
                  rfl
              | some row => exact .inr ⟨workflowId, row, _, .continues carries named stored⟩
        | _ =>
            left
            rw [handle, subscribe_settled steps identified]
            refine settled_error fun after returned => ?_
            cases congrArg Prod.fst returned

/-- The standing of an execution that is continued or begun by a message. -/
theorem Attempt.standing_before (distinct : workflow.DistinctNames) {session : Session}
    {payload : Fields} {workflowId : String} {row : WorkflowState} {tick : Nat}
    (attempt : workflow.Attempt session payload workflowId row tick) :
    workflow.standing row = workflow.saga workflowId session ∨
      workflow.saga workflowId session = none ∧
        workflow.standing row = some ⟨0, false, false⟩ := by
  cases attempt with
  | continues carries named stored => exact .inl (by rw [saga, stored, Option.bind_some])
  | begins anonymous first unused =>
      refine .inr ⟨by rw [saga, unused, Option.bind_none], ?_⟩
      rw [standing_eq (distinct.firstNamed first) (workflow.initialRow _ _ _) rfl]
      rfl

/-- A message leaves the rows of all executions but its own alone. -/
theorem Attempt.others {session : Session} {payload : Fields} {workflowId : String}
    {row : WorkflowState} {tick : Nat}
    (attempt : workflow.Attempt session payload workflowId row tick) {other : String}
    (different : other ≠ workflowId) :
    (workflow.handle session payload).table other = session.table other := by
  have settles : ∀ {opened before : Session}, before.table other = opened.table other →
      (settled opened (exec (workflow.continueFrom workflowId payload row) before)).table other =
        opened.table other := by
    intro opened before same
    have confined := (Confined.continueFrom workflow payload row before).others other different
    rcases result : exec (workflow.continueFrom workflowId payload row) before with
      ⟨outcome, after⟩
    rw [result] at confined
    cases outcome with
    | ok _ => exact confined.trans same
    | error _ => rfl
  cases attempt with
  | continues carries named stored =>
      by_cases steps : workflow.steps = []
      · rw [handle_empty steps]
        rfl
      · rw [handle, subscribe_stored carries named steps stored]
        exact settles rfl
  | begins anonymous first unused =>
      rw [handle, subscribe_begun anonymous first unused]
      exact settles (Function.update_of_ne different _ _)

/-- Handling a message leaves an execution where it is, or the message belongs to the execution and
moves it by a turn. -/
theorem saga_handle (distinct : workflow.DistinctNames) (workflowId : String) (session : Session)
    (payload : Fields) :
    workflow.saga workflowId (workflow.handle session payload) = workflow.saga workflowId session ∨
      ∃ row tick standing, workflow.Attempt session payload workflowId row tick ∧
        workflow.standing row = some standing ∧
          Saga.Turn workflow.steps.length workflow.options.deleteOnComplete standing
            (workflow.saga workflowId (workflow.handle session payload)) := by
  rcases handle_attempts session payload with same | ⟨owner, row, tick, attempt⟩
  · exact .inl (by rw [saga, saga, same])
  · by_cases own : workflowId = owner
    · subst own
      by_cases steps : workflow.steps = []
      · exact .inl (by rw [handle_empty steps]; rfl)
      · obtain ⟨opened, before, table, found, -, handled⟩ := attempt.settles steps
        rcases result : exec (workflow.continueFrom workflowId payload row) before with
          ⟨outcome, after⟩
        rw [result] at handled
        rw [handled]
        cases outcome with
        | ok _ =>
            obtain ⟨standing, stands, turn⟩ := turn_of_continueFrom distinct found result
            exact .inr ⟨row, tick, standing, attempt, stands, turn⟩
        | error thrown =>
            left
            change (opened.table workflowId).bind workflow.standing = _
            rw [table]
            rfl
    · exact .inl (by rw [saga, saga, attempt.others own])

/-- Handling a message moves the execution it belongs to, or leaves it where it is. -/
theorem messages_simulate (distinct : workflow.DistinctNames) (workflowId : String) :
    workflow.messages.Simulates (fun _ => True) (fun _ _ => True) (workflow.saga workflowId)
      (Saga.Move workflow.steps.length workflow.options.deleteOnComplete) := by
  intro session payload after _ _ step
  obtain rfl := Option.some.inj step
  refine ⟨trivial, ?_⟩
  rcases saga_handle distinct workflowId session payload with
    same | ⟨row, tick, standing, attempt, stands, turn⟩
  · exact .inl same
  · rcases attempt.standing_before distinct with stored | ⟨absent, begun⟩
    · exact .inr (by rwa [Saga.Move, ← stored, stands])
    · obtain rfl := Option.some.inj (begun.symm.trans stands)
      exact .inr (by rwa [Saga.Move, absent])

/-- The message does not begin an execution under the identifier of another one. -/
def Elsewhere (workflow : Workflow) (workflowId : String) (session : Session) (payload : Fields) :
    Prop :=
  nullish (payload.get "workflowId") = true → workflow.freshId session ≠ workflowId

/-- While no execution is begun under its identifier, an execution is only continued. -/
theorem messages_continue (distinct : workflow.DistinctNames) (workflowId : String) :
    workflow.messages.Simulates (fun _ => True) (workflow.Elsewhere workflowId)
      (workflow.saga workflowId)
      (Saga.Continues workflow.steps.length workflow.options.deleteOnComplete) := by
  intro session payload after _ elsewhere step
  obtain rfl := Option.some.inj step
  refine ⟨trivial, ?_⟩
  rcases saga_handle distinct workflowId session payload with
    same | ⟨row, tick, standing, attempt, stands, turn⟩
  · exact .inl same
  · cases attempt with
    | continues carries named stored =>
        exact .inr ⟨standing, by rw [saga, stored, Option.bind_some, stands], turn⟩
    | begins anonymous first unused => exact absurd rfl (elsewhere anonymous)

theorem messages_run (payloads : List Fields) (session : Session) :
    workflow.messages.run payloads session = some (payloads.foldl workflow.handle session) := by
  induction payloads generalizing session with
  | nil => rfl
  | cons payload payloads induction => exact induction _

/-- Whatever messages are handled in whatever order, each execution goes through the machine. -/
theorem handles_follow_saga (distinct : workflow.DistinctNames) (workflowId : String)
    (session : Session) (payloads : List Fields) :
    Relation.ReflTransGen (Saga.Move workflow.steps.length workflow.options.deleteOnComplete)
      (workflow.saga workflowId session)
      (workflow.saga workflowId (payloads.foldl workflow.handle session)) := by
  have unguarded : workflow.messages.Along (fun _ _ => True) payloads session :=
    workflow.messages.along_of_always (fun _ _ => trivial) payloads session
  exact (messages_simulate distinct workflowId).run trivial unguarded
    (messages_run payloads session)

theorem resolving_distinct (names : List String) (distinct : names.Nodup) :
    (resolving names).DistinctNames := by
  have kept : (resolving names).steps.map Step.name = names := by
    simp [resolving, accepting, Function.comp_def]
  rwa [DistinctNames, kept]

theorem resolving_follows_saga :
    Relation.ReflTransGen (Saga.Move 2 false)
      ((resolving ["charge", "notify"]).saga "flow-1" ⟨fun _ => none, 0, []⟩)
      ((resolving ["charge", "notify"]).saga "flow-1"
        ([[], [("workflowId", .str "flow-1")]].foldl (resolving ["charge", "notify"]).handle
          ⟨fun _ => none, 0, []⟩)) :=
  handles_follow_saga (resolving_distinct ["charge", "notify"] (by decide)) "flow-1" _ _

/-- The standing of an execution that is there can change as often as the ranking says. -/
theorem rank_saga_le (workflow : Workflow) (workflowId : String) (session : Session) :
    Saga.rank workflow.steps.length (workflow.saga workflowId session) ≤
      2 * workflow.steps.length := by
  cases stands : workflow.saga workflowId session with
  | none => exact Nat.zero_le _
  | some standing =>
      obtain ⟨row, -, stands⟩ := Option.bind_eq_some_iff.mp stands
      obtain ⟨position, found, rfl⟩ := Option.map_eq_some_iff.mp stands
      have inside := (List.findIdx?_eq_some_iff_findIdx_eq.mp found).1
      have flag := Bool.toNat_le (!row.completed)
      simp only [Saga.rank]
      split <;> omega

/-- However many messages are handled, the standing of one execution of a workflow with `n` steps
changes at most `2 * n` times. -/
theorem saga_changes_le (distinct : workflow.DistinctNames) (workflowId : String)
    {session : Session} {payloads : List Fields}
    (elsewhere : workflow.messages.Along (workflow.Elsewhere workflowId) payloads session) :
    workflow.messages.changes (workflow.saga workflowId) payloads session ≤
      2 * workflow.steps.length := by
  have bounded := (messages_continue distinct workflowId).changes_add_rank_le
    (Saga.rank workflow.steps.length) ?_ trivial elsewhere (messages_run payloads session)
  · have start := workflow.rank_saga_le workflowId session
    omega
  · rintro before after ⟨standing, rfl, turn⟩ changed
    exact turn.descends changed

/-- A workflow of named steps that all resolve, which numbers its executions. -/
def numbered (names : List String) : Workflow :=
  { resolving names with host := { Host.accepting with v4 := Nat.repr } }

/-- The session in which the execution `flow-0` has just been started. -/
def numberedStart (names : List String) : Session :=
  (numbered names).handle ⟨fun _ => none, 0, []⟩ []

theorem numbered_elsewhere :
    (numbered ["charge", "notify"]).messages.Along
      ((numbered ["charge", "notify"]).Elsewhere "flow-0")
      [[], [("workflowId", .str "flow-0")]] (numberedStart ["charge", "notify"]) :=
  ⟨fun _ => by decide, fun _ _ =>
    ⟨fun anonymous => by simp [Fields.get, nullish] at anonymous, fun _ _ => trivial⟩⟩

theorem numbered_distinct {names : List String} (distinct : names.Nodup) :
    (numbered names).DistinctNames :=
  resolving_distinct names distinct

theorem numbered_changes_le :
    0 < (numbered ["charge", "notify"]).messages.changes
        ((numbered ["charge", "notify"]).saga "flow-0") [[], [("workflowId", .str "flow-0")]]
        (numberedStart ["charge", "notify"]) ∧
      (numbered ["charge", "notify"]).messages.changes
        ((numbered ["charge", "notify"]).saga "flow-0") [[], [("workflowId", .str "flow-0")]]
        (numberedStart ["charge", "notify"]) ≤ 2 * 2 :=
  ⟨by decide, saga_changes_le (numbered_distinct (by decide)) "flow-0" numbered_elsewhere⟩

/-! ## Failed executions -/

/-- Whether a message names an execution. -/
def addresses (workflowId : String) (payload : Fields) : Bool :=
  match payload.get "workflowId" with
  | some (.str identifier) => identifier = workflowId
  | _ => false

theorem addresses_iff {workflowId : String} {payload : Fields} :
    addresses workflowId payload = true ↔ payload.get "workflowId" = some (.str workflowId) := by
  rw [addresses]
  split
  · rename_i identifier carries
    simp [carries]
  · rename_i unnamed
    constructor
    · intro named
      cases named
    · intro named
      exact absurd named (unnamed workflowId)

/-- The rollback of a failed execution returns if the rollback functions resolve. -/
theorem continueFrom_returns (distinct : workflow.DistinctNames)
    (resolve : workflow.RollbacksResolve) (named : ∀ step ∈ workflow.steps, step.name ≠ "")
    {workflowId : String} (payload : Fields) {row : WorkflowState} {session : Session}
    (found : session.table workflowId = some row) (failed : row.errorList ≠ [])
    (stands : (workflow.standing row).isSome) :
    ∃ after, exec (workflow.continueFrom workflowId payload row) session = (.ok (), after) := by
  obtain ⟨standing, stands⟩ := Option.isSome_iff_exists.mp stands
  obtain ⟨index, position, -⟩ := Option.map_eq_some_iff.mp stands
  obtain ⟨bound, same, -⟩ := List.findIdx?_eq_some_iff_getElem.mp position
  have name : workflow.steps[index].name = row.current := by simpa using same
  have at_index := List.getElem?_eq_getElem (l := workflow.steps) (i := index) bound
  have current : (row.current != "") = true := by
    simpa [← name] using named _ (List.getElem_mem bound)
  have candidate := (distinct.firstNamed at_index).find_name
  rw [name] at candidate
  have failing : row.errorList.isEmpty = false := by simpa using failed
  obtain ⟨after, loops, -⟩ := exec_rollbackLoop distinct resolve
    ⟨workflowId, payload, workflow.steps[index], row⟩ at_index at_index bound found
  refine ⟨after, ?_⟩
  rw [continueFrom, current, exec_bind_ok (exec_ensure_true _ _), candidate]
  simp only [failing, Bool.false_eq_true, if_false]
  exact loops

/-- A message for a failed execution moves it back one step, any other one leaves it alone. -/
theorem saga_handle_failed (distinct : workflow.DistinctNames)
    (resolve : workflow.RollbacksResolve) (named : ∀ step ∈ workflow.steps, step.name ≠ "")
    {workflowId : String} (identified : workflowId ≠ "") {session : Session}
    {standing : Saga.Standing} (stands : workflow.saga workflowId session = some standing)
    (failed : standing.failed = true) (payload : Fields) :
    workflow.saga workflowId (workflow.handle session payload) =
      some (if addresses workflowId payload then standing.unwound else standing) := by
  obtain ⟨row, stored, rowStands⟩ := Option.bind_eq_some_iff.mp stands
  by_cases carries : addresses workflowId payload = true
  · rw [if_pos carries]
    have steps : workflow.steps ≠ [] := by
      intro empty
      rw [Workflow.standing, getStepIndex, empty] at rowStands
      cases rowStands
    have failing : row.errorList ≠ [] := by
      obtain ⟨position, -, rfl⟩ := Option.map_eq_some_iff.mp rowStands
      simpa using failed
    have found : (resumed session workflowId).table workflowId = some row := stored
    obtain ⟨after, returned⟩ := continueFrom_returns distinct resolve named payload found failing
      (by rw [rowStands]; rfl)
    obtain ⟨other, same, turn⟩ := turn_of_continueFrom distinct found returned
    obtain rfl := Option.some.inj (rowStands.symm.trans same)
    rw [handle, subscribe_stored (addresses_iff.mp carries) identified steps stored, returned]
    exact turn.failed_of_failed failed
  · rw [if_neg carries, ← stands]
    rcases handle_attempts session payload with same | ⟨owner, row', tick, attempt⟩
    · rw [saga, saga, same]
    · have other : workflowId ≠ owner := by
        rintro rfl
        cases attempt with
        | continues carried _ _ => exact carries (addresses_iff.mpr carried)
        | begins anonymous first unused => cases stored.symm.trans unused
      rw [saga, saga, attempt.others other]

/-- When the rollback functions resolve, every message for a failed execution moves it back by
exactly one step, and one more message than that completes it, whatever else is handled. -/
theorem handles_unwind (distinct : workflow.DistinctNames)
    (resolve : workflow.RollbacksResolve) (named : ∀ step ∈ workflow.steps, step.name ≠ "")
    {workflowId : String} (identified : workflowId ≠ "") {session : Session}
    {standing : Saga.Standing} (stands : workflow.saga workflowId session = some standing)
    (failed : standing.failed = true) (payloads : List Fields) :
    workflow.saga workflowId (payloads.foldl workflow.handle session) =
      some
        { standing with
          position := standing.position - payloads.countP (addresses workflowId)
          completed := standing.completed ||
            decide (standing.position < payloads.countP (addresses workflowId)) } := by
  rw [← Saga.unwound_iterate]
  induction payloads generalizing session standing with
  | nil => exact stands
  | cons payload payloads induction =>
      have first := saga_handle_failed distinct resolve named identified stands failed payload
      by_cases carries : addresses workflowId payload = true
      · rw [if_pos carries] at first
        rw [List.countP_cons_of_pos carries, Function.iterate_succ_apply]
        refine induction first ?_
        obtain ⟨position, _, _⟩ := standing
        cases position <;> exact failed
      · rw [if_neg carries] at first
        rw [List.countP_cons_of_neg carries]
        exact induction first failed

theorem twoSteps_unwind :
    (twoSteps "b").saga "flow-1"
      ([[("workflowId", .str "flow-1")], [], [("workflowId", .str "flow-1")]].foldl
        (twoSteps "b").handle
        ⟨fun _ => some { newRow with current := "b", errors := some [⟨"b", "Error: failed"⟩] },
          0, []⟩) = some ⟨0, true, true⟩ :=
  handles_unwind (twoSteps_distinct "b") (twoSteps_resolve "b") (by simp [twoSteps, accepting])
    (by decide) (show _ = some ⟨1, true, false⟩ by decide) rfl _

end Workflow

end Steveo
