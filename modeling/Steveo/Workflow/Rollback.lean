import Steveo.Workflow.Delivery

/-!
# Undoing a failed execution

The rollback loop moves a cursor from the failed step to the first one, but every round works on
the failed step.  The calls of the loop are computed for every position of that step, and compared
with those that undo the steps one after the other.
-/

namespace Steveo

open Steveo.Action Engine

namespace Call

/-- The step that a call undoes. -/
def undone : Call → Option (String × String)
  | .rollback workflowId step => some (workflowId, step)
  | _ => none

/-- The step to which a call moves an execution back. -/
def movedBack : Call → Option (String × String)
  | .rollbackStepExecute workflowId step => some (workflowId, step)
  | _ => none

end Call

namespace Workflow

/-- The calls that undo the steps up to an index: the rollback functions from the last step to the
first, the moves to each earlier step, and at the end the completion, which happens once. -/
structure Unwinds (workflow : Workflow) (workflowId : String) (index : Nat) (calls : List Call) :
    Prop where
  rollbacks : calls.filterMap Call.undone =
    ((workflow.steps.take (index + 1)).reverse.filter fun step => step.rollback.isSome).map
      fun step => (workflowId, step.name)
  moves : calls.filterMap Call.movedBack =
    (workflow.steps.take index).reverse.map fun step => (workflowId, step.name)
  completion : ∃ earlier, calls = earlier ++ [.updateWorkflowCompleted workflowId] ∧
    Call.updateWorkflowCompleted workflowId ∉ earlier

/-- The rollback functions of a workflow all resolve. -/
def RollbacksResolve (workflow : Workflow) : Prop :=
  ∀ step ∈ workflow.steps, ∀ rollback, step.rollback = some rollback →
    ∀ tick state, rollback tick state = .ok ()

/-- The call by which a round leaves the step at an index. -/
def leavingCall (workflow : Workflow) (workflowId : String) : Nat → Call
  | 0 => .updateWorkflowCompleted workflowId
  | index + 1 =>
      match workflow.steps[index]? with
      | some previous => .rollbackStepExecute workflowId previous.name
      | none => .updateWorkflowCompleted workflowId

/-- The calls of one round of the rollback loop that was started at the step at an index. -/
def roundCalls (workflow : Workflow) (workflowId : String) (index : Nat) (step : Step) :
    List Call :=
  (if step.rollback.isSome then [.rollback workflowId step.name] else []) ++
    [workflow.leavingCall workflowId index]

variable {workflow : Workflow}

theorem exec_callRollback (workflowId : String) {step : Step}
    (resolves : ∀ rollback, step.rollback = some rollback →
      ∀ tick state, rollback tick state = .ok ())
    (state : WorkflowState) (session : Session) :
    ∃ after, exec (callRollback workflowId step state) session = (.ok (), after) ∧
      after.table = session.table ∧ after.log = session.log ++
        if step.rollback.isSome then [.rollback workflowId step.name] else [] := by
  cases undo : step.rollback with
  | none => exact ⟨session, by simp only [callRollback, undo, exec_pure], rfl, by simp⟩
  | some rollback =>
      refine ⟨(session.logged (.rollback workflowId step.name)).ticked, ?_, rfl, by simp⟩
      simp only [callRollback, undo, exec_bind, exec_record, exec_outside,
        resolves rollback undo, exec_ofExcept_ok]

theorem exec_guardedRound_ok {context : ExecuteContext} {session after : Session}
    (returned : exec (workflow.rollbackRound context) session = (.ok (), after)) :
    exec (workflow.guardedRound context) session = (.ok (), after) := by
  simp only [guardedRound, exec_bind, exec_attempt, returned, exec_pure]

theorem exec_guardedRound (distinct : workflow.DistinctNames)
    (resolve : workflow.RollbacksResolve) {context : ExecuteContext} {index : Nat}
    (at_index : workflow.steps[index]? = some context.step) {session : Session}
    {row : WorkflowState} (found : session.table context.workflowId = some row) :
    ∃ after changed, exec (workflow.guardedRound context) session = (.ok (), after) ∧
      after.table context.workflowId = some changed ∧
        after.log = session.log ++ workflow.roundCalls context.workflowId index context.step := by
  obtain ⟨middle, calls, table, log⟩ := exec_callRollback context.workflowId
    (resolve context.step (List.mem_of_getElem? at_index)) context.state session
  have found' : middle.table context.workflowId = some row := by rw [table, found]
  cases index with
  | zero =>
      have completes := WorkflowRepository.exec_updateWorkflowCompleted middle found'
      rw [← exec_bind_ok calls fun _ =>
        WorkflowRepository.updateWorkflowCompleted context.workflowId,
        ← rollbackRound_first distinct at_index] at completes
      refine ⟨_, _, exec_guardedRound_ok completes, Function.update_self _ _ _, ?_⟩
      simp [log, roundCalls, leavingCall]
  | succ index =>
      obtain ⟨bound, -⟩ := List.getElem?_eq_some_iff.mp at_index
      have previous := List.getElem?_eq_getElem (l := workflow.steps) (i := index) (by omega)
      have moves := WorkflowRepository.exec_rollbackStepExecute middle found'
        workflow.steps[index].name
      rw [← exec_bind_ok calls fun _ =>
        WorkflowRepository.rollbackStepExecute context.workflowId workflow.steps[index].name,
        ← rollbackRound_later distinct at_index previous] at moves
      refine ⟨_, _, exec_guardedRound_ok moves, Function.update_self _ _ _, ?_⟩
      simp [log, roundCalls, leavingCall, previous]

/-- The loop makes one round for every step from its cursor to the first one, and the rounds are
all alike. -/
theorem exec_rollbackLoop (distinct : workflow.DistinctNames)
    (resolve : workflow.RollbacksResolve) (context : ExecuteContext) {index : Nat}
    (at_index : workflow.steps[index]? = some context.step) {position rounds : Nat} {cursor : Step}
    (cursor_at : workflow.steps[position]? = some cursor) (enough : position < rounds)
    {session : Session} {row : WorkflowState}
    (found : session.table context.workflowId = some row) :
    ∃ after, exec (workflow.rollbackLoop context rounds (some cursor)) session = (.ok (), after) ∧
      after.log = session.log ++ (List.replicate (position + 1)
        (workflow.roundCalls context.workflowId index context.step)).flatten := by
  obtain ⟨rounds, rfl⟩ := Nat.exists_eq_succ_of_ne_zero (Nat.ne_of_gt (Nat.zero_lt_of_lt enough))
  obtain ⟨middle, changed, round, found', log⟩ :=
    exec_guardedRound distinct resolve at_index found
  induction position generalizing rounds cursor session row middle changed with
  | zero =>
      refine ⟨middle, ?_, by simpa using log⟩
      rw [rollbackLoop, exec_bind_ok round, distinct.getPreviousStep_zero cursor_at,
        exec_bind_ok (exec_pure _ _)]
      cases rounds <;> rfl
  | succ position induction =>
      obtain ⟨bound, -⟩ := List.getElem?_eq_some_iff.mp cursor_at
      have previous := List.getElem?_eq_getElem (l := workflow.steps) (i := position) (by omega)
      obtain ⟨rounds, rfl⟩ := Nat.exists_eq_succ_of_ne_zero (by omega : rounds ≠ 0)
      obtain ⟨later, changed', round', found'', log'⟩ :=
        exec_guardedRound distinct resolve at_index found'
      obtain ⟨after, loops, calls⟩ :=
        induction previous found' rounds (by omega) later changed' round' found'' log'
      refine ⟨after, ?_, ?_⟩
      · rw [rollbackLoop, exec_bind_ok round, distinct.getPreviousStep_succ cursor_at,
          exec_bind_ok (exec_pure _ _), previous]
        exact loops
      · rw [calls, log, List.append_assoc]
        rfl

/-- The calls made from the failure of a step on, when all rollback functions resolve. -/
theorem exec_continueFrom_threw (distinct : workflow.DistinctNames)
    (resolve : workflow.RollbacksResolve) {index : Nat} {step : Step} {row : WorkflowState}
    {session : Session} {workflowId thrown : String} {payload : Fields}
    (runnable : workflow.Runnable row index step) (found : session.table workflowId = some row)
    (threw : step.execute session.tick payload = .error thrown) :
    ∃ after, exec (workflow.continueFrom workflowId payload row) session = (.ok (), after) ∧
      after.log = session.log ++ ([.execute workflowId step.name payload,
        .emit "workflow_step_failure", .storeExecuteError workflowId row.current thrown] ++
          (List.replicate (index + 1) (workflow.roundCalls workflowId index step)).flatten) := by
  let context : ExecuteContext := ⟨workflowId, payload, step, row⟩
  let notified : Session := (session.logged (.execute workflowId step.name payload)).ticked.logged
    (.emit "workflow_step_failure")
  have current : (row.current != "") = true := by
    simpa [← runnable.name] using runnable.named
  have candidate := (distinct.firstNamed runnable.at_index).find_name
  rw [runnable.name] at candidate
  have stores := WorkflowRepository.exec_storeExecuteError notified found row.current thrown
  have failed : ((notified.logged (.storeExecuteError workflowId row.current thrown)).stored
      workflowId (some (row.withError row.current thrown))).table context.workflowId =
        some (row.withError row.current thrown) := Function.update_self _ _ _
  obtain ⟨bound, -⟩ := List.getElem?_eq_some_iff.mp runnable.at_index
  obtain ⟨after, loops, log⟩ := exec_rollbackLoop distinct resolve context runnable.at_index
    runnable.at_index bound failed
  refine ⟨after, ?_, ?_⟩
  · rw [continueFrom, current, exec_bind_ok (exec_ensure_true _ _), candidate]
    simp only [runnable.clean, List.isEmpty_nil, if_true]
    rw [executeNextStep, exec_bind_ok (exec_attempt _ _),
      exec_runStep_thrown context runnable.service runnable.ordered threw]
    simp only [failStep]
    rw [exec_bind_ok (exec_emit _ _), exec_bind_ok stores]
    exact loops
  · rw [log]
    simp [notified, context]

/-- No call of a loop that was started past the first step completes the execution. -/
theorem roundCalls_later {workflowId : String} {index : Nat} {step : Step}
    (at_index : workflow.steps[index + 1]? = some step) :
    Call.updateWorkflowCompleted workflowId ∉ workflow.roundCalls workflowId (index + 1) step := by
  obtain ⟨bound, -⟩ := List.getElem?_eq_some_iff.mp at_index
  have previous := List.getElem?_eq_getElem (l := workflow.steps) (i := index) (by omega)
  intro member
  rcases List.mem_append.mp member with undoes | leaves
  · split at undoes <;> simp at undoes
  · simp [leavingCall, previous] at leaves

/-- When a step throws and all rollback functions resolve, the execution is undone step by step
exactly if it was the first step that threw. -/
theorem unwinds_iff (distinct : workflow.DistinctNames) (resolve : workflow.RollbacksResolve)
    {index : Nat} {step : Step} {row : WorkflowState} {session : Session}
    {workflowId thrown : String} {payload : Fields} (runnable : workflow.Runnable row index step)
    (found : session.table workflowId = some row)
    (threw : step.execute session.tick payload = .error thrown) :
    (∃ after calls, exec (workflow.continueFrom workflowId payload row) session = (.ok (), after) ∧
      after.log = session.log ++ calls ∧ workflow.Unwinds workflowId index calls) ↔
        index = 0 := by
  obtain ⟨after, fails, log⟩ :=
    exec_continueFrom_threw distinct resolve runnable found threw
  constructor
  · rintro ⟨other, calls, fails', log', unwinds⟩
    have same : after = other := congrArg Prod.snd (fails.symm.trans fails')
    have delta := List.append_cancel_left (log.symm.trans (same ▸ log'))
    obtain ⟨earlier, ends, -⟩ := unwinds.completion
    rw [← delta] at ends
    cases index with
    | zero => rfl
    | succ index =>
        have member : Call.updateWorkflowCompleted workflowId ∈
            earlier ++ [Call.updateWorkflowCompleted workflowId] := by simp
        rw [← ends] at member
        rcases List.mem_append.mp member with early | looped
        · simp at early
        · obtain ⟨round, replicated, completes⟩ := List.mem_flatten.mp looped
          rw [List.eq_of_mem_replicate replicated] at completes
          exact (roundCalls_later runnable.at_index completes).elim
  · rintro rfl
    have first : workflow.steps.take 1 = [step] := by
      rw [List.take_one, List.head?_eq_getElem?, runnable.at_index, Option.toList_some]
    have ends : [.execute workflowId step.name payload, .emit "workflow_step_failure",
        .storeExecuteError workflowId row.current thrown] ++
          (List.replicate 1 (workflow.roundCalls workflowId 0 step)).flatten =
        ([.execute workflowId step.name payload, .emit "workflow_step_failure",
          .storeExecuteError workflowId row.current thrown] ++
            if step.rollback.isSome then [.rollback workflowId step.name] else []) ++
          [.updateWorkflowCompleted workflowId] := by
      simp [roundCalls, leavingCall]
    refine ⟨after, _, fails, log, ?_, ?_, _, ends, ?_⟩
    · rw [ends, first]
      cases undo : step.rollback with
      | none => simp [undo, List.filterMap_cons, Call.undone]
      | some rollback => simp [undo, List.filterMap_cons, Call.undone]
    · rw [ends]
      split <;> simp [Call.movedBack]
    · split <;> simp

/-- A workflow of two steps that can both be undone, and of which one throws. -/
def twoSteps (failing : String) : Workflow :=
  accepting <| ["a", "b"].map fun name =>
    { name
      execute := fun _ _ =>
        if name = failing then .error "Error: failed" else .ok (some (.bool true))
      rollback := some fun _ _ => .ok () }

theorem twoSteps_distinct (failing : String) : (twoSteps failing).DistinctNames := by
  simp [DistinctNames, twoSteps, accepting]

theorem twoSteps_resolve (failing : String) : (twoSteps failing).RollbacksResolve := by
  intro step member rollback undo
  simp only [twoSteps, accepting, List.map_cons, List.map_nil, List.mem_cons, List.not_mem_nil,
    or_false] at member
  obtain rfl | rfl := member <;>
  · obtain rfl := Option.some.inj undo
    exact fun _ _ => rfl

/-- A new execution of the workflow. -/
def newRow : WorkflowState where
  workflowId := "flow-1"
  serviceId := "DEFAULT"
  completed := false
  current := "a"
  initial := []
  results := none
  errors := none

/-- Where its first step throws, the execution is undone as it should be. -/
theorem twoSteps_first_unwinds :
    ∃ after calls,
      exec ((twoSteps "a").continueFrom "flow-1" [] newRow)
        ⟨fun _ => some newRow, 0, []⟩ = (.ok (), after) ∧
      after.log = [] ++ calls ∧ (twoSteps "a").Unwinds "flow-1" 0 calls :=
  (unwinds_iff (twoSteps_distinct "a") (twoSteps_resolve "a")
    ⟨rfl, rfl, by decide, rfl, rfl, rfl⟩ rfl rfl).mpr rfl

/-- Where its second step throws, the second step is undone twice and the first one never; the
execution is moved to its first step twice and is not completed. -/
theorem twoSteps_second_unwinds_wrongly :
    ∃ broker, (twoSteps "b").deliveryRun ⟨fun _ => none, 0, []⟩ [] [0] = some broker ∧
      broker.session.log.filterMap Call.undone = [("flow-1", "b"), ("flow-1", "b")] ∧
      broker.session.log.filterMap Call.undone ≠
        (((twoSteps "b").steps.take 2).reverse.filter fun step => step.rollback.isSome).map
          (fun step => ("flow-1", step.name)) ∧
      broker.session.log.filterMap Call.movedBack = [("flow-1", "a"), ("flow-1", "a")] ∧
      (broker.session.table "flow-1").map WorkflowState.completed = some false :=
  ⟨_, rfl, rfl, by decide, rfl, rfl⟩

end Workflow

end Steveo
