import Steveo.Runtime.Context
import Steveo.Runtime.Registry
import Steveo.Workflow.Repository

/-!
# The workflow engine

This file models the execution of a workflow: publishing the next step, running a step, rolling
back, and handling one message inside a storage transaction.  The code outside the engine (step
functions, the producer, identifier generation) may answer differently at every call.
-/

namespace Steveo

open Steveo.Action Engine

/-- One step of a workflow. -/
structure Step where
  /-- Name of the step within its workflow. -/
  name : String
  /-- Override of the topic name. -/
  topic : Option String := none
  /-- The step's implementation, which resolves to a value or throws. -/
  execute : Nat → Fields → Except String (Option Json)
  /-- What undoes the step, when it can be undone. -/
  rollback : Option (Nat → WorkflowState → Except String Unit) := none
  /-- Options under which the step is registered. -/
  options : TaskOptions := {}

/-- Options of a workflow; the last two are read when the topics of its steps are formatted. -/
structure WorkflowOptions extends TaskOptions where
  /-- The service on which the workflow runs. -/
  serviceId : String := "DEFAULT"
  /-- Whether a finished execution is deleted instead of marked. -/
  deleteOnComplete : Bool := true
  queuePrefix : Option String := none
  upperCaseNames : Option Bool := none

/-- The code outside the engine that a workflow relies on. -/
structure Host where
  /-- Upper-casing of strings. -/
  toUpperCase : String → String
  /-- Generation of random identifiers. -/
  v4 : Nat → String
  /-- The producer's preparation of a topic. -/
  initializeTopic : Nat → String → Except String Unit
  /-- The producer's sending of a payload to a topic. -/
  send : Nat → String → Fields → Except String Unit

/-- Outside code that accepts every message and knows one random identifier. -/
def Host.accepting : Host where
  toUpperCase := id
  v4 := fun _ => "1"
  initializeTopic := fun _ _ => .ok ()
  send := fun _ _ _ => .ok ()

/-- A workflow: its steps in order together with what it was constructed with. -/
structure Workflow where
  name : String
  topic : String
  options : WorkflowOptions
  host : Host
  steps : List Step

/-- The second argument of `subscribe`: a logger, or what a runner hands to a task. -/
inductive LogArgument
  | logger
  | plain (argument : Argument)

/-- The current execution context of a workflow. -/
structure ExecuteContext where
  workflowId : String
  payload : Fields
  step : Step
  state : WorkflowState

namespace LogArgument

/-- Call a method of the log; only a logger has methods. -/
def call (method : String) : LogArgument → Engine Unit
  | .logger => pure ()
  | .plain (.value .null) =>
      throw s!"TypeError: Cannot read properties of null (reading '{method}')"
  | .plain _ => throw s!"TypeError: log.{method} is not a function"

/-- Call `log.child`. -/
def child : LogArgument → Engine Unit := call "child"

/-- Call `log.error`. -/
def error : LogArgument → Engine Unit := call "error"

end LogArgument

namespace Workflow

/-- The topic to which the message for a step is sent. -/
def formatStepMessage (workflow : Workflow) (name : String) : String :=
  formatTopicName workflow.host.toUpperCase (workflow.name ++ "__" ++ name)
    { queueName := workflow.options.queueName
      queuePrefix := workflow.options.queuePrefix
      upperCaseNames := workflow.options.upperCaseNames }

/-- Position of the first step with a name. -/
def getStepIndex (workflow : Workflow) (name : String) : Option Nat :=
  workflow.steps.findIdx? fun step => step.name == name

/-- The step before the one with the given name. -/
def getPreviousStep (workflow : Workflow) (stepName : String) : Engine (Option Step) :=
  match workflow.getStepIndex stepName with
  | none => throw s!"Error: Step {stepName} was not found in workflow {workflow.name}"
  | some 0 => pure none
  | some (index + 1) => pure workflow.steps[index]?

/-- The step after the one with the given name. -/
def getNextStep (workflow : Workflow) (stepName : String) : Engine (Option Step) :=
  match workflow.getStepIndex stepName with
  | none => throw s!"Error: Step {stepName} was not found in workflow {workflow.name}"
  | some index => pure workflow.steps[index + 1]?

/-- Hand one message to the producer, which counts as published once the producer resolves. -/
def sendMessage (workflow : Workflow) (message : Published) : Engine Unit := do
  let sent ← outside fun tick => workflow.host.send tick message.topic message.payload
  emit "workflow_send"
  ofExcept sent
  record (.send message)

/-- The mechanics of publishing one message. -/
def publishInternal (workflow : Workflow) (message : Published) : Engine Unit := do
  let published ← attempt do
    let ready ← outside fun tick => workflow.host.initializeTopic tick message.topic
    ofExcept ready
    workflow.sendMessage message
    emit "workflow_publish_success"
  match published with
  | .ok _ => pure ()
  | .error thrown =>
      emit "workflow_publish_failure"
      throw thrown

/-- The message that starts an execution.  It is sent to the name of the first step. -/
def startMessage (workflow : Workflow) (payload : Fields) : Option Published :=
  workflow.steps.head?.map fun step =>
    { workflowId := "", previous := "", result := none, step := step.name
      topic := step.name, payload }

/-- Publish the message that starts an execution. -/
def publish (workflow : Workflow) (payload : Fields) : Engine Unit :=
  match workflow.startMessage payload with
  | none => throw "TypeError: Cannot read properties of undefined (reading 'name')"
  | some message => workflow.publishInternal message

/-- The message that carries the result of one step to the next one. -/
def stepMessage (workflow : Workflow) (workflowId current : String) (result : Option Json)
    (next : Step) : Published where
  workflowId := workflowId
  previous := current
  result := result
  step := next.name
  topic := workflow.formatStepMessage next.name
  payload := Fields.spread [("workflowId", .str workflowId)] (ownFields result)

/-- Move the execution to the next step and publish its message, or finish the execution. -/
def publishNextStep (workflow : Workflow) (current workflowId : String)
    (payload : Option Json) : Engine Unit := do
  match ← workflow.getNextStep current with
  | none =>
      if workflow.options.deleteOnComplete then
        WorkflowRepository.deleteWorkflow workflowId
      else
        WorkflowRepository.updateWorkflowCompleted workflowId
  | some next =>
      WorkflowRepository.updateCurrentStep workflowId next.name
      workflow.publishInternal (workflow.stepMessage workflowId current payload next)

/-- Call a step's rollback function, if it has one. -/
def callRollback (workflowId : String) (step : Step) (state : WorkflowState) : Engine Unit :=
  match step.rollback with
  | none => pure ()
  | some rollback => do
      record (.rollback workflowId step.name)
      let undone ← outside fun tick => rollback tick state
      ofExcept undone

/-- The `try` block of one round of the rollback loop.  It works on the step at which the rollback
was started, not on the loop's cursor. -/
def rollbackRound (workflow : Workflow) (context : ExecuteContext) : Engine Unit := do
  callRollback context.workflowId context.step context.state
  match ← workflow.getPreviousStep context.step.name with
  | some previous => WorkflowRepository.rollbackStepExecute context.workflowId previous.name
  | none => WorkflowRepository.updateWorkflowCompleted context.workflowId

/-- One round of the rollback loop up to the move of the cursor: an error is recorded and ends the
loop. -/
def guardedRound (workflow : Workflow) (context : ExecuteContext) : Engine Unit := do
  match ← attempt (workflow.rollbackRound context) with
  | .ok _ => pure ()
  | .error thrown =>
      WorkflowRepository.storeExecuteError context.workflowId context.state.current thrown
      throw thrown

/-- The rollback loop, with a bound on the number of its rounds. -/
def rollbackLoop (workflow : Workflow) (context : ExecuteContext) :
    Nat → Option Step → Engine Unit
  | _, none => pure ()
  | 0, some _ => pure ()
  | rounds + 1, some current => do
      workflow.guardedRound context
      let previous ← workflow.getPreviousStep current.name
      workflow.rollbackLoop context rounds previous

/-- Undo the steps of a failed execution.  The cursor moves to an earlier step in every round, so
that as many rounds as there are steps are enough. -/
def executeRollback (workflow : Workflow) (context : ExecuteContext) : Engine Unit :=
  workflow.rollbackLoop context workflow.steps.length (some context.step)

/-- Whether the results column has the results on which the ordering check of a step insists. -/
def expectedOrder (workflow : Workflow) (step : Step) (state : WorkflowState) : Bool :=
  let stepIndex := workflow.steps.findIdx fun candidate => candidate.name == step.name
  let executed := if stepIndex > 0 then workflow.steps.take (stepIndex - 1) else []
  executed.all fun earlier => state.hasResult earlier.name

/-- Run a step's function. -/
def callExecute (context : ExecuteContext) : Engine (Option Json) := do
  record (.execute context.workflowId context.step.name context.payload)
  let resolved ← outside fun tick => context.step.execute tick context.payload
  ofExcept resolved

/-- The part of `executeNextStep` up to the stored result. -/
def runStep (workflow : Workflow) (context : ExecuteContext) : Engine (Option Json) := do
  ensure (context.state.serviceId == workflow.options.serviceId)
    (s!"Error: Workflow attempted to execute across network boundary. " ++
      s!"Expected {workflow.options.serviceId}, found {context.state.serviceId}")
  ensure (workflow.expectedOrder context.step context.state)
    "Error: Out of order step execution detected on workflow"
  let result ← callExecute context
  WorkflowRepository.storeStepResult context.workflowId context.state.current result
  pure result

/-- Record the failure of a step and start the rollback. -/
def failStep (workflow : Workflow) (context : ExecuteContext) (thrown : String) :
    Engine Unit := do
  emit "workflow_step_failure"
  WorkflowRepository.storeExecuteError context.workflowId context.state.current thrown
  workflow.executeRollback context

/-- Run the current step and move on.  A failure after the result was stored finds the result in
the state that it hands to the rollback. -/
def executeNextStep (workflow : Workflow) (context : ExecuteContext) : Engine Unit := do
  match ← attempt (workflow.runStep context) with
  | .error thrown => workflow.failStep context thrown
  | .ok result =>
      match ← attempt (workflow.publishNextStep context.step.name context.workflowId result) with
      | .error thrown =>
          workflow.failStep
            { context with state := context.state.withResult context.state.current result } thrown
      | .ok _ => pure ()

/-- Create the row of an execution that the payload does not name. -/
def initialise (workflow : Workflow) (workflowId : String) (payload : Fields) : Engine Unit :=
  if truthy (payload.get "workflowId") then
    pure ()
  else
    match workflow.steps.head? with
    | none => throw "TypeError: Cannot read properties of undefined (reading 'name')"
    | some firstStep =>
        WorkflowRepository.workflowInit workflowId workflow.options.serviceId firstStep.name payload

/-- Read the row of an execution, which has to exist. -/
def loadState (flowId : String) : Engine WorkflowState := do
  ensure (flowId != "") "Error: WorkflowId was empty for run"
  match ← WorkflowRepository.loadWorkflow flowId with
  | none => throw s!"Error: State was not found for workflowId {flowId}"
  | some state => pure state

/-- Continue a loaded execution: roll back if it has failed, else run its current step. -/
def continueFrom (workflow : Workflow) (workflowId : String) (payload : Fields)
    (state : WorkflowState) : Engine Unit := do
  ensure (state.current != "") s!"Error: Workflow state was not found: {workflowId}"
  match workflow.steps.find? fun step => step.name == state.current with
  | none => throw s!"Error: Worflow could not find current step {state.current}"
  | some step =>
      if state.errorList.isEmpty then
        workflow.executeNextStep { workflowId, payload, step, state }
      else
        workflow.executeRollback { workflowId, payload, step, state }

/-- The storage key of an identifier.  A client that is given anything but a string rejects its
first call. -/
def storageKey : Json → Engine String
  | .str workflowId => pure workflowId
  | _ => throw "PrismaClientValidationError: Expected String"

/-- Process a single message payload inside a transaction. -/
def processPayload (workflow : Workflow) (identifier : Json) (payload : Fields) :
    Engine Unit := do
  let workflowId ← storageKey identifier
  workflow.initialise workflowId payload
  let state ← loadState workflowId
  workflow.continueFrom workflowId payload state

/-- Run an action on the rows in a transaction: its changes to them are kept if it returns and
discarded if it throws. -/
def transaction {α : Type} (body : Engine α) : Engine α := do
  record .transaction
  let before ← get
  match ← attempt body with
  | .ok value => pure value
  | .error thrown =>
      modify fun session => { session with table := before.table }
      throw thrown

/-- The identifier of the execution that a payload continues or starts. -/
def executionId (workflow : Workflow) (payload : Fields) : Engine Json :=
  match payload.get "workflowId" with
  | none | some .null => do
      let uuid ← outside workflow.host.v4
      pure (.str (workflow.name ++ "-" ++ uuid))
  | some identifier => pure identifier

/-- Handle one message. -/
def subscribe (workflow : Workflow) (payload : Fields) (log : LogArgument) : Engine Json := do
  let handled ← attempt do
    ensure (!workflow.steps.isEmpty) "Error: Steps must be defined before a flow is executed"
    let identifier ← workflow.executionId payload
    transaction do
      log.child
      workflow.processPayload identifier payload
    emit "workflow_step_success"
    pure identifier
  match handled with
  | .ok identifier => pure identifier
  | .error thrown =>
      log.error
      emit "workflow_step_failure"
      throw thrown

end Workflow

end Steveo
