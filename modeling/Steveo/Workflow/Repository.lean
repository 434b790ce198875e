import Mathlib.Logic.Function.Basic
import Steveo.Library.Action
import Steveo.Library.Json

/-!
# Stored workflow executions

This file models the workflow state rows, the repository that reads and writes them inside a
transaction, and the log of calls by which a workflow is observed.  Every repository call works on
the row of one workflow; updating or deleting an absent row throws, as the database client does.
-/

namespace Steveo

/-- One recorded error of a workflow execution. -/
structure ExecuteError where
  /-- The step at which the error occurred. -/
  identifier : String
  /-- The error, rendered as a string. -/
  error : String
  deriving DecidableEq

/-- The stored state of one workflow execution. -/
structure WorkflowState where
  /-- Key of the execution. -/
  workflowId : String
  /-- Service that started the execution. -/
  serviceId : String
  /-- Whether a completion time has been stored. -/
  completed : Bool
  /-- Name of the step the execution stands at. -/
  current : String
  /-- The payload that started the execution. -/
  initial : Fields
  /-- Results by step name; the column starts as `null`. -/
  results : Option Fields
  /-- Recorded errors; the column starts as `null`. -/
  errors : Option (List ExecuteError)

namespace WorkflowState

/-- The entry of a step in the results column. -/
def result (state : WorkflowState) (step : String) : Option Json :=
  state.results.bind fun results => results.get step

/-- The test of `state.results?.[step]` as a condition. -/
def hasResult (state : WorkflowState) (step : String) : Bool :=
  state.results.any fun results => results.truthyAt step

/-- The recorded errors, with an empty column read as no errors. -/
def errorList (state : WorkflowState) : List ExecuteError := state.errors.getD []

/-- The state with one more step result. -/
def withResult (state : WorkflowState) (step : String) (value : Option Json) : WorkflowState :=
  { state with results := some ((state.results.getD []).setProperty step value) }

/-- The state with one more error. -/
def withError (state : WorkflowState) (identifier error : String) : WorkflowState :=
  { state with errors := some (state.errorList ++ [⟨identifier, error⟩]) }

theorem result_withResult_self (state : WorkflowState) {step : String}
    (ordinary : step ≠ "__proto__") (value : Option Json) :
    (state.withResult step value).result step = value := by
  simp [withResult, result, Fields.get_setProperty_self _ ordinary]

theorem result_withResult_of_ne (state : WorkflowState) {step other : String}
    (different : other ≠ step) (value : Option Json) :
    (state.withResult step value).result other = state.result other := by
  cases columns : state.results with
  | none => simp [withResult, result, columns, Fields.get_setProperty_of_ne _ different]
  | some results => simp [withResult, result, columns, Fields.get_setProperty_of_ne _ different]

theorem results_of_hasResult {state : WorkflowState} {step : String}
    (held : state.hasResult step = true) : state.results.isSome = true := by
  cases columns : state.results with
  | none => simp [hasResult, columns] at held
  | some results => rfl

/-- Storing a result leaves other results as they are, once there are any. -/
theorem hasResult_withResult_of_ne {state : WorkflowState} (present : state.results.isSome = true)
    {step other : String} (different : other ≠ step) (value : Option Json) :
    (state.withResult step value).hasResult other = state.hasResult other := by
  obtain ⟨results, columns⟩ := Option.isSome_iff_exists.mp present
  simp [withResult, hasResult, columns, Fields.truthyAt, Fields.get_setProperty_of_ne _ different]

/-- No result makes `__proto__` a property of the results themselves. -/
theorem result_proto_withResult {state : WorkflowState}
    (inherited : state.result "__proto__" = none) (step : String) (value : Option Json) :
    (state.withResult step value).result "__proto__" = none := by
  by_cases same : "__proto__" = step
  · subst same
    cases columns : state.results with
    | none => simp [withResult, result, columns, Fields.setProperty]
    | some results =>
        have absent : results.get "__proto__" = none := by simpa [result, columns] using inherited
        simp [withResult, result, columns, Fields.setProperty, absent]
  · rw [result_withResult_of_ne state same, inherited]

/-- Whether what a step has resolved to counts as its result once it is stored: a value that is
not truthy does not, but nothing stands in the way of what objects inherit. -/
def Counts (step : String) (value : Option Json) : Prop :=
  truthy value = true ∨ step = "__proto__" ∨ value = none ∧ step ∈ OBJECT_PROTOTYPE

theorem hasResult_withResult_self {state : WorkflowState}
    (inherited : state.result "__proto__" = none) (step : String) (value : Option Json) :
    (state.withResult step value).hasResult step = true ↔ Counts step value := by
  by_cases proto : step = "__proto__"
  · subst proto
    have absent := result_proto_withResult inherited "__proto__" value
    simp only [withResult, result, Option.bind_some] at absent
    simp [withResult, hasResult, Fields.truthyAt, absent, Counts, OBJECT_PROTOTYPE]
  · have entry : ((state.results.getD []).setProperty step value).get step = value :=
      Fields.get_setProperty_self _ proto value
    cases value with
    | none => simp [withResult, hasResult, Fields.truthyAt, entry, Counts, proto, truthy]
    | some value => simp [withResult, hasResult, Fields.truthyAt, entry, Counts, proto]

@[simp] theorem errorList_withError (state : WorkflowState) (identifier error : String) :
    (state.withError identifier error).errorList = state.errorList ++ [⟨identifier, error⟩] := rfl

end WorkflowState

/-- A message that a workflow has handed to the producer.  The topic and the payload are what is
sent; the other fields say on whose behalf. -/
structure Published where
  /-- The execution that published the message. -/
  workflowId : String
  /-- The step whose result the message carries. -/
  previous : String
  /-- The value that step resolved to. -/
  result : Option Json
  /-- The step the message is meant for. -/
  step : String
  /-- The topic the message is sent to. -/
  topic : String
  /-- The published object. -/
  payload : Fields

/-- The calls by which a workflow is observed, in the order in which they are made. -/
inductive Call
  | transaction
  | workflowInit (workflowId : String) (initial : Fields)
  | loadWorkflow (workflowId : String)
  | updateWorkflowCompleted (workflowId : String)
  | deleteWorkflow (workflowId : String)
  | updateCurrentStep (workflowId step : String)
  | storeExecuteError (workflowId identifier error : String)
  | storeStepResult (workflowId step : String) (result : Option Json)
  | rollbackStepExecute (workflowId step : String)
  | execute (workflowId step : String) (payload : Fields)
  | rollback (workflowId step : String)
  | send (message : Published)
  | emit (event : String)

/-- The stored rows, by workflow identifier. -/
abbrev Table := String → Option WorkflowState

/-- What one consumer process works on: the rows as its transaction sees them, the number of
calls made so far to code outside the engine, and the calls that can be observed. -/
structure Session where
  /-- Rows as seen from inside the transaction. -/
  table : Table
  /-- Number of calls to code outside the engine. -/
  tick : Nat
  /-- Calls made so far. -/
  log : List Call

namespace Session

/-- The session with one more call in its log. -/
def logged (session : Session) (call : Call) : Session :=
  { session with log := session.log ++ [call] }

/-- The session with the row of one workflow replaced. -/
def stored (session : Session) (workflowId : String) (row : Option WorkflowState) : Session :=
  { session with table := Function.update session.table workflowId row }

/-- The session after one more call to code outside the engine. -/
def ticked (session : Session) : Session := { session with tick := session.tick + 1 }

@[simp] theorem logged_table (session : Session) (call : Call) :
    (session.logged call).table = session.table := rfl

@[simp] theorem logged_tick (session : Session) (call : Call) :
    (session.logged call).tick = session.tick := rfl

@[simp] theorem logged_log (session : Session) (call : Call) :
    (session.logged call).log = session.log ++ [call] := rfl

@[simp] theorem stored_table (session : Session) (workflowId : String)
    (row : Option WorkflowState) :
    (session.stored workflowId row).table = Function.update session.table workflowId row := rfl

@[simp] theorem stored_tick (session : Session) (workflowId : String)
    (row : Option WorkflowState) : (session.stored workflowId row).tick = session.tick := rfl

@[simp] theorem stored_log (session : Session) (workflowId : String)
    (row : Option WorkflowState) : (session.stored workflowId row).log = session.log := rfl

@[simp] theorem ticked_table (session : Session) : session.ticked.table = session.table := rfl

@[simp] theorem ticked_tick (session : Session) : session.ticked.tick = session.tick + 1 := rfl

@[simp] theorem ticked_log (session : Session) : session.ticked.log = session.log := rfl

end Session

/-- An action of the workflow engine. -/
abbrev Engine (α : Type) := Action Session α

namespace Engine

/-- Add a call to the log. -/
def record (call : Call) : Engine Unit := modify fun session => session.logged call

/-- Notify the listeners of the registry. -/
def emit (event : String) : Engine Unit := record (.emit event)

/-- Ask code outside the engine, whose answer may depend on when it is asked. -/
def outside {α : Type} (answer : Nat → α) : Engine α := do
  let session ← get
  set session.ticked
  pure (answer session.tick)

@[simp] theorem exec_record (call : Call) (session : Session) :
    Action.exec (record call) session = (.ok (), session.logged call) := rfl

@[simp] theorem exec_emit (event : String) (session : Session) :
    Action.exec (emit event) session = (.ok (), session.logged (.emit event)) := rfl

@[simp] theorem exec_outside {α : Type} (answer : Nat → α) (session : Session) :
    Action.exec (outside answer) session = (.ok (answer session.tick), session.ticked) := rfl

end Engine

/-! ## The repository -/

namespace WorkflowRepository

open Engine

/-- Change the row of a workflow, which has to exist. -/
def update (workflowId : String) (change : WorkflowState → WorkflowState) : Engine Unit := do
  match (← get).table workflowId with
  | none => throw "PrismaClientKnownRequestError: Record to update not found."
  | some row => modify fun session => session.stored workflowId (some (change row))

/-- Create the row of a new execution; the key must be unused. -/
def workflowInit (workflowId serviceId current : String) (initial : Fields) : Engine Unit := do
  record (.workflowInit workflowId initial)
  match (← get).table workflowId with
  | some _ => throw "PrismaClientKnownRequestError: Unique constraint failed"
  | none =>
      modify fun session =>
        session.stored workflowId
          (some
            { workflowId, serviceId, completed := false, current, initial
              results := none, errors := none })

/-- Read the row of a workflow. -/
def loadWorkflow (workflowId : String) : Engine (Option WorkflowState) := do
  record (.loadWorkflow workflowId)
  pure ((← get).table workflowId)

/-- Store the completion time. -/
def updateWorkflowCompleted (workflowId : String) : Engine Unit := do
  record (.updateWorkflowCompleted workflowId)
  update workflowId fun row => { row with completed := true }

/-- Delete the row of a workflow, which has to exist. -/
def deleteWorkflow (workflowId : String) : Engine Unit := do
  record (.deleteWorkflow workflowId)
  match (← get).table workflowId with
  | none => throw "PrismaClientKnownRequestError: Record to delete does not exist."
  | some _ => modify fun session => session.stored workflowId none

/-- Move the execution to a step. -/
def updateCurrentStep (workflowId stepName : String) : Engine Unit := do
  record (.updateCurrentStep workflowId stepName)
  update workflowId fun row => { row with current := stepName }

/-- Append an error to the stored errors. -/
def storeExecuteError (workflowId identifier error : String) : Engine Unit := do
  record (.storeExecuteError workflowId identifier error)
  update workflowId fun row => row.withError identifier error

/-- Store the result of a step, which also makes that step the current one. -/
def storeStepResult (workflowId nextStep : String) (result : Option Json) : Engine Unit := do
  record (.storeStepResult workflowId nextStep result)
  update workflowId fun row => { row.withResult nextStep result with current := nextStep }

/-- Move the execution back to a step. -/
def rollbackStepExecute (workflowId nextStep : String) : Engine Unit := do
  record (.rollbackStepExecute workflowId nextStep)
  update workflowId fun row => { row with current := nextStep }

section Specifications

variable (session : Session) {workflowId : String} {row : WorkflowState}

theorem exec_update (found : session.table workflowId = some row)
    (change : WorkflowState → WorkflowState) :
    Action.exec (update workflowId change) session =
      (.ok (), session.stored workflowId (some (change row))) := by
  rw [update, Action.exec_bind_ok (Action.exec_get session), found]
  rfl

/-- Recording a call and changing a row that exists. -/
theorem exec_recorded_update (found : session.table workflowId = some row) (call : Call)
    (change : WorkflowState → WorkflowState) :
    Action.exec (record call >>= fun _ => update workflowId change) session =
      (.ok (), (session.logged call).stored workflowId (some (change row))) := by
  rw [Action.exec_bind_ok (exec_record call session)]
  exact exec_update (session.logged call) found change

theorem exec_workflowInit (absent : session.table workflowId = none) (serviceId current : String)
    (initial : Fields) :
    Action.exec (workflowInit workflowId serviceId current initial) session =
      (.ok (), (session.logged (.workflowInit workflowId initial)).stored workflowId
        (some
          { workflowId, serviceId, completed := false, current, initial
            results := none, errors := none })) := by
  rw [workflowInit, Action.exec_bind_ok (exec_record _ _),
    Action.exec_bind_ok (Action.exec_get _), Session.logged_table, absent]
  rfl

theorem exec_loadWorkflow (workflowId : String) :
    Action.exec (loadWorkflow workflowId) session =
      (.ok (session.table workflowId), session.logged (.loadWorkflow workflowId)) := rfl

theorem exec_updateWorkflowCompleted (found : session.table workflowId = some row) :
    Action.exec (updateWorkflowCompleted workflowId) session =
      (.ok (), (session.logged (.updateWorkflowCompleted workflowId)).stored workflowId
        (some { row with completed := true })) :=
  exec_recorded_update session found _ _

theorem exec_deleteWorkflow (found : session.table workflowId = some row) :
    Action.exec (deleteWorkflow workflowId) session =
      (.ok (), (session.logged (.deleteWorkflow workflowId)).stored workflowId none) := by
  rw [deleteWorkflow, Action.exec_bind_ok (exec_record _ _),
    Action.exec_bind_ok (Action.exec_get _), Session.logged_table, found]
  rfl

theorem exec_updateCurrentStep (found : session.table workflowId = some row) (stepName : String) :
    Action.exec (updateCurrentStep workflowId stepName) session =
      (.ok (), (session.logged (.updateCurrentStep workflowId stepName)).stored workflowId
        (some { row with current := stepName })) :=
  exec_recorded_update session found _ _

theorem exec_storeExecuteError (found : session.table workflowId = some row)
    (identifier error : String) :
    Action.exec (storeExecuteError workflowId identifier error) session =
      (.ok (), (session.logged (.storeExecuteError workflowId identifier error)).stored workflowId
        (some (row.withError identifier error))) :=
  exec_recorded_update session found _ _

theorem exec_storeStepResult (found : session.table workflowId = some row) (nextStep : String)
    (result : Option Json) :
    Action.exec (storeStepResult workflowId nextStep result) session =
      (.ok (), (session.logged (.storeStepResult workflowId nextStep result)).stored workflowId
        (some { row.withResult nextStep result with current := nextStep })) :=
  exec_recorded_update session found _ _

theorem exec_rollbackStepExecute (found : session.table workflowId = some row)
    (nextStep : String) :
    Action.exec (rollbackStepExecute workflowId nextStep) session =
      (.ok (), (session.logged (.rollbackStepExecute workflowId nextStep)).stored workflowId
        (some { row with current := nextStep })) :=
  exec_recorded_update session found _ _

end Specifications

end WorkflowRepository

end Steveo
