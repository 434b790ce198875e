import Steveo.Library.Execution
import Steveo.Workflow.Handling

/-!
# Delivering published messages one at a time

A broker hands messages to a workflow.  It may start executions with payloads that name none, and
it may deliver any message that the workflow has published so far, in any order and repeatedly;
every transaction finishes before the next delivery.
-/

namespace Steveo

open Steveo.Action

namespace Call

/-- The message that a call hands to the producer. -/
def publication : Call → Option Published
  | .send message => some message
  | _ => none

/-- The execution and the step that a call runs. -/
def execution : Call → Option (String × String)
  | .execute workflowId step _ => some (workflowId, step)
  | _ => none

theorem Idle.publication {workflowId : String} {call : Call} (idle : call.Idle workflowId) :
    call.publication = none := by
  cases call with
  | send message => exact idle.elim
  | _ => rfl

theorem Idle.execution {workflowId : String} {call : Call} (idle : call.Idle workflowId) :
    call.execution = none := by
  cases call with
  | execute owner step payload => exact idle.elim
  | _ => rfl

end Call

/-- The messages published by a log of calls, in the order of their publication. -/
def publications (log : List Call) : List Published := log.filterMap Call.publication

/-- The steps run by a log of calls, in the order in which they were run. -/
def executions (log : List Call) : List (String × String) := log.filterMap Call.execution

@[simp] theorem publications_nil : publications [] = [] := rfl

@[simp] theorem executions_nil : executions [] = [] := rfl

@[simp] theorem publications_append (earlier later : List Call) :
    publications (earlier ++ later) = publications earlier ++ publications later :=
  List.filterMap_append

@[simp] theorem executions_append (earlier later : List Call) :
    executions (earlier ++ later) = executions earlier ++ executions later :=
  List.filterMap_append

@[simp] theorem publications_cons (call : Call) (calls : List Call) :
    publications (call :: calls) = call.publication.toList ++ publications calls := by
  cases call <;> rfl

@[simp] theorem executions_cons (call : Call) (calls : List Call) :
    executions (call :: calls) = call.execution.toList ++ executions calls := by
  cases call <;> rfl

theorem publications_idle {workflowId : String} {calls : List Call}
    (idle : ∀ call ∈ calls, call.Idle workflowId) : publications calls = [] :=
  List.filterMap_eq_nil_iff.mpr fun call member => (idle call member).publication

theorem executions_idle {workflowId : String} {calls : List Call}
    (idle : ∀ call ∈ calls, call.Idle workflowId) : executions calls = [] :=
  List.filterMap_eq_nil_iff.mpr fun call member => (idle call member).execution

theorem Touches.publications_eq {workflowId : String} {before after : Session}
    (touches : Touches workflowId before after) :
    publications after.log = publications before.log := by
  obtain ⟨calls, log, idle⟩ := touches.log
  rw [log, publications_append, publications_idle idle, List.append_nil]

theorem Touches.executions_eq {workflowId : String} {before after : Session}
    (touches : Touches workflowId before after) :
    executions after.log = executions before.log := by
  obtain ⟨calls, log, idle⟩ := touches.log
  rw [log, executions_append, executions_idle idle, List.append_nil]

theorem Unwound.publications_eq {workflowId : String} {before after : Session}
    {outcome : Except String Unit} (unwound : Unwound workflowId before outcome after) :
    publications after.log = publications before.log := by
  cases unwound with
  | threw touches => exact touches.publications_eq
  | returned touches _ _ => exact touches.publications_eq
  | completed touches _ _ => simp [touches.publications_eq, Call.publication]

theorem Unwound.executions_eq {workflowId : String} {before after : Session}
    {outcome : Except String Unit} (unwound : Unwound workflowId before outcome after) :
    executions after.log = executions before.log := by
  cases unwound with
  | threw touches => exact touches.executions_eq
  | returned touches _ _ => exact touches.executions_eq
  | completed touches _ _ => simp [touches.executions_eq, Call.execution]

theorem settled_publications (before : Session) (result : Except String Unit × Session) :
    publications (Workflow.settled before result).log = publications result.2.log := by
  rcases result with ⟨outcome, after⟩
  cases outcome <;> simp [Workflow.settled, Call.publication]

theorem settled_executions (before : Session) (result : Except String Unit × Session) :
    executions (Workflow.settled before result).log = executions result.2.log := by
  rcases result with ⟨outcome, after⟩
  cases outcome <;> simp [Workflow.settled, Call.execution]

/-- A broker with the identifiers of the executions it has started and the positions, among the
published messages, of those it has delivered. -/
structure Broker where
  session : Session
  started : List String
  delivered : List Nat

/-- What a broker can do. -/
inductive BrokerEvent
  | start (payload : Fields)
  | deliver (index : Nat)

namespace Workflow

/-- A workflow that keeps its finished executions. -/
def accepting (steps : List Step) : Workflow where
  name := "flow"
  topic := "flow"
  options := { deleteOnComplete := false }
  host := .accepting
  steps := steps

/-- A workflow of named steps that all resolve to `true`. -/
def resolving (names : List String) : Workflow :=
  accepting <| names.map fun name => { name, execute := fun _ _ => .ok (some (.bool true)) }

/-- The session after a message was handled. -/
def handle (workflow : Workflow) (session : Session) (payload : Fields) : Session :=
  (exec (workflow.subscribe payload .logger) session).2

theorem handle_empty {workflow : Workflow} (none : workflow.steps = []) (session : Session)
    (payload : Fields) :
    workflow.handle session payload = session.logged (.emit "workflow_step_failure") := by
  simp only [handle, subscribe, none, List.isEmpty_nil, Bool.not_true, exec_bind, exec_attempt,
    exec_ensure_false, LogArgument.error, LogArgument.call, exec_pure, Engine.exec_emit, exec_throw]

/-- Deliveries to a workflow.  A new execution gets an identifier that was not in use. -/
def delivery (workflow : Workflow) : System Broker BrokerEvent where
  step broker event :=
    match event with
    | .start payload =>
        if nullish (payload.get "workflowId") && !broker.started.contains
            (workflow.freshId broker.session) then
          some
            { session := workflow.handle broker.session payload
              started := broker.started ++ [workflow.freshId broker.session]
              delivered := broker.delivered }
        else
          none
    | .deliver index =>
        match (publications broker.session.log)[index]? with
        | none => none
        | some message =>
            some
              { session := workflow.handle broker.session message.payload
                started := broker.started
                delivered := broker.delivered ++ [index] }

/-- The run in which an execution is started and messages are delivered. -/
def deliveryRun (workflow : Workflow) (session : Session) (payload : Fields)
    (deliveries : List Nat) : Option Broker :=
  workflow.delivery.run (.start payload :: deliveries.map .deliver) ⟨session, [], []⟩

variable {workflow : Workflow} {broker after : Broker}

theorem delivery_start {payload : Fields}
    (step : workflow.delivery.step broker (.start payload) = some after) :
    nullish (payload.get "workflowId") = true ∧
      workflow.freshId broker.session ∉ broker.started ∧
        after.session = workflow.handle broker.session payload ∧
          after.started = broker.started ++ [workflow.freshId broker.session] ∧
            after.delivered = broker.delivered := by
  simp only [delivery] at step
  split at step
  · next accepted =>
      obtain rfl := Option.some.inj step
      simpa using accepted
  · simp at step

theorem delivery_deliver {index : Nat}
    (step : workflow.delivery.step broker (.deliver index) = some after) :
    ∃ message, (publications broker.session.log)[index]? = some message ∧
      after.session = workflow.handle broker.session message.payload ∧
        after.started = broker.started ∧ after.delivered = broker.delivered ++ [index] := by
  simp only [delivery] at step
  split at step
  · simp at step
  · next message found =>
      obtain rfl := Option.some.inj step
      exact ⟨message, found, rfl, rfl, rfl⟩

end Workflow

end Steveo
