import Steveo.Library.Async
import Steveo.Messaging.Runner

/-!
# Messages that are handled side by side

The runners handle the messages of a batch concurrently.  This file models the handling of one
message by the SQS and the Redis runner as a program that awaits the pool, the queue, the listeners
of the registry and the callback of the task, whose answers are left to the outside.  A program
that is not interrupted does what the runner does.  No middleware is configured.
-/

namespace Steveo

namespace Batch

open Async

/-- The calls that are made while a message is handled. -/
inductive Call (η : Type)
  /-- Look whether the manager is terminating or terminated. -/
  | shouldTerminate
  | acquire
  | release (resource : String)
  | deleteMessage (queue handle : String)
  | emit (event topic : String)
  | subscribe (task : RegistryElem η) (payload : Fields) (argument : Argument)

/-- The answer to a call that is not rejected. -/
abbrev Call.Answer {η : Type} : Call η → Type
  | .shouldTerminate => Bool
  | .acquire => String
  | .release _ | .deleteMessage _ _ | .emit _ _ | .subscribe _ _ _ => Unit

/-- The handling of a message. -/
abbrev Handling (η α : Type) : Type := Async (Call.Answer (η := η)) α

/-- What a runner reads from its instance. -/
structure Setup (η : Type) where
  registry : Registry η
  /-- Whether the configuration delays deletion until a message is handled. -/
  waitToCommit : Option Bool
  arrival : Arrival

/-- An instance without tasks. -/
def vacant : Setup Unit := ⟨.empty, none, ⟨0, fun _ => none, fun _ => ""⟩⟩

variable {η : Type} (setup : Setup η)

/-- Every call succeeds; the manager may be terminating. -/
def granting (terminating : Bool) : ∀ call : Call η, Except String call.Answer
  | .shouldTerminate => .ok terminating
  | .acquire => .ok "first"
  | .release _ | .deleteMessage _ _ | .emit _ _ | .subscribe _ _ _ => .ok ()

/-- Notify the listeners of the registry. -/
def emit (event topic : String) : Handling η Unit := perform (Call.emit event topic)

/-- Delete a message. -/
def delete (queue handle : String) : Handling η Unit := perform (Call.deleteMessage queue handle)

/-- Return a resource to the pool. -/
def release (resource : String) : Handling η Unit := perform (Call.release resource)

/-- Call the callback of a task. -/
def subscribe (task : RegistryElem η) (payload : Fields) (argument : Argument) :
    Handling η Unit := perform (Call.subscribe task payload argument)

/-- Call the callback of what is found under a topic: what is inherited has none. -/
def callback (task : Found η) (payload : Fields) (argument : Argument) : Handling η Unit :=
  match task with
  | .own task => subscribe task payload argument
  | .inherited => reject "TypeError: task.subscribe is not a function"

namespace Sqs

/-- The queue of a topic. -/
def getTopic (topic : String) : String :=
  if ((setup.registry.getTask topic).bind fun task => task.options.fifo).getD false then
    topic ++ ".fifo"
  else
    topic

/-- Delete a message that can be deleted. -/
def deleteMessage (topic : String) (message : SqsMessage) : Handling η Unit :=
  match message.receiptHandle with
  | none | some "" => pure ()
  | some handle => delete (getTopic setup topic) handle

/-- Whether a message is deleted only after it has been handled. -/
def waitToCommit (topic : String) : Bool :=
  ((setup.registry.getTask topic).bind fun task => task.options.waitToCommit).getD false ||
    setup.waitToCommit.getD false

/-- The `try` block around the handling of one message. -/
def handleMessage (message : SqsMessage) (topic : String) (payload : Json) :
    Handling η Unit := do
  let runnerContext ← ofExcept (getContext setup.arrival payload)
  emit "runner_receive" topic
  runIf (!waitToCommit setup topic) (deleteMessage setup topic message)
  match setup.registry.getTask topic with
  | none => pure ()
  | some task =>
      callback task ((ownFields payload).without "_meta") (.context runnerContext)
      runIf (waitToCommit setup topic) (deleteMessage setup topic message)
      let _ ← ofExcept (getContext setup.arrival payload)
      emit "runner_complete" topic

/-- The `try` block with its handler for errors. -/
def handleOrReport (message : SqsMessage) (topic : String) (payload : Json) :
    Handling η Unit := do
  match ← (handleMessage setup message topic payload).attempt with
  | .ok _ => pure ()
  | .error _ => emit "runner_failure" topic

/-- Handle one message whose body has been parsed.  The resource is taken before the `try` block
and returned in its `finally` block. -/
def processMessage (message : SqsMessage) (topic : String) (payload : Json) :
    Handling η Unit := do
  let terminating ← perform Call.shouldTerminate
  if terminating then
    pure ()
  else
    let resource ← perform Call.acquire
    ensure (!nullish payload)
      "TypeError: Cannot destructure property '_meta' of 'payload' as it is null."
    let outcome ← (handleOrReport setup message topic payload).attempt
    release resource
    ofExcept outcome

/-- Handle one message of a batch. -/
def receive (topic : String) (message : SqsMessage) : Handling η Unit :=
  match message.body with
  | none => reject "SyntaxError: Unexpected token in JSON"
  | some payload => processMessage setup message topic payload

end Sqs

namespace Redis

/-- The `try` block once a resource is held.  It answers whether it has run to its end: the return
for an unknown task leaves the whole handler. -/
def handleMessage (topic : String) (received : RedisMessage) : Handling η Bool :=
  match received.message with
  | none => reject "SyntaxError: Unexpected token in JSON"
  | some params => do
      let _ ← ofExcept (getContext setup.arrival params)
      emit "runner_receive" topic
      delete topic received.id
      match setup.registry.getTask topic with
      | none => pure false
      | some task =>
          callback task ((ownFields params).without "context")
            (.value ((params.get "context").getD .null))
          let _ ← ofExcept (getContext setup.arrival params)
          emit "runner_complete" topic
          pure true

/-- Handle one message. -/
def receive (topic : String) (received : RedisMessage) : Handling η Unit := do
  match ← (perform Call.acquire : Handling η String).attempt with
  | .error _ => emit "runner_failure" topic
  | .ok resource =>
      match ← (handleMessage setup topic received).attempt with
      | .ok true => release resource
      | .ok false => pure ()
      | .error _ =>
          emit "runner_failure" topic
          release resource

end Redis

/-! ## The handling of a message without interruption -/

section Uninterrupted

variable {σ : Type} (runner : Runner σ)

/-- What a runner reads from its instance. -/
def Setup.of : Setup (Callback σ) where
  registry := runner.registry
  waitToCommit := runner.waitToCommit
  arrival := runner.arrival

/-- How a runner answers the calls. -/
def serve : ∀ call : Call (Callback σ), Action (Consumer σ) call.Answer
  | .shouldTerminate => pure runner.shouldTerminate
  | .acquire => runner.acquireResource
  | .release resource => runner.releaseResource resource
  | .deleteMessage queue handle => runner.delete queue handle
  | .emit event topic => Runner.emit event topic
  | .subscribe task payload argument => Runner.subscribe task payload argument

@[simp] theorem interpret_emit (event topic : String) :
    (emit event topic).interpret (serve runner) = Runner.emit event topic :=
  interpret_perform _ _

@[simp] theorem interpret_delete (queue handle : String) :
    (delete queue handle).interpret (serve runner) = runner.delete queue handle :=
  interpret_perform _ _

@[simp] theorem interpret_release (resource : String) :
    (release resource).interpret (serve runner) = runner.releaseResource resource :=
  interpret_perform _ _

@[simp] theorem interpret_subscribe (task : RegistryElem (Callback σ)) (payload : Fields)
    (argument : Argument) :
    (subscribe task payload argument).interpret (serve runner) =
      Runner.subscribe task payload argument :=
  interpret_perform _ _

@[simp] theorem interpret_callback (task : Found (Callback σ)) (payload : Fields)
    (argument : Argument) :
    (callback task payload argument).interpret (serve runner) =
      Runner.callback task payload argument := by
  cases task with
  | own task => exact interpret_subscribe runner task payload argument
  | inherited => rfl

@[simp] theorem interpret_deleteMessage (topic : String) (message : SqsMessage) :
    (Sqs.deleteMessage (Setup.of runner) topic message).interpret (serve runner) =
      SqsRunner.deleteMessage runner topic message := by
  obtain ⟨body, _ | handle⟩ := message
  · rfl
  · by_cases blank : handle = ""
    · subst blank
      rfl
    · have deletes : Sqs.deleteMessage (Setup.of runner) topic ⟨body, some handle⟩ =
          delete (SqsRunner.getTopic runner topic) handle := by
        rw [Sqs.deleteMessage]
        split
        · contradiction
        · rename_i same
          exact absurd (Option.some.inj same) blank
        · rename_i same
          rw [Option.some.inj same]
          rfl
      rw [deletes, interpret_delete, SqsRunner.deleteMessage]
      split
      · contradiction
      · rename_i same
        exact absurd (Option.some.inj same) blank
      · rename_i same
        rw [Option.some.inj same]

theorem interpret_sqs_handleMessage (message : SqsMessage) (topic : String) (payload : Json) :
    (Sqs.handleMessage (Setup.of runner) message topic payload).interpret (serve runner) =
      SqsRunner.handleMessage runner message topic payload := by
  rw [Sqs.handleMessage, SqsRunner.handleMessage]
  simp only [interpret_bind, interpret_ofExcept, interpret_emit, interpret_runIf,
    interpret_deleteMessage]
  refine bind_congr fun context => bind_congr fun _ => bind_congr fun _ => ?_
  have registry : (Setup.of runner).registry = runner.registry := rfl
  rw [registry]
  cases runner.registry.getTask topic with
  | none => rfl
  | some task =>
      simp only [interpret_bind, interpret_callback, interpret_runIf, interpret_deleteMessage,
        interpret_ofExcept, interpret_emit]
      rfl

/-- What follows the handling of a message returns the resource, whatever the outcome; notifying
the listeners throws nothing. -/
theorem finally_eq (handled : Action (Consumer σ) Unit) (topic resource : String) :
    (do
      let outcome ← Action.attempt do
        match ← Action.attempt handled with
        | .ok _ => pure ()
        | .error _ => Runner.emit "runner_failure" topic
      runner.releaseResource resource
      MonadExcept.ofExcept outcome) =
    (do
      match ← Action.attempt handled with
      | .ok _ => pure ()
      | .error _ => Runner.emit "runner_failure" topic
      runner.releaseResource resource) := by
  have returned : ∀ state, Action.exec (do
      runner.releaseResource resource
      MonadExcept.ofExcept (Except.ok () : Except String Unit)) state =
        Action.exec (runner.releaseResource resource) state := by
    intro state
    rw [Action.exec_bind]
    rcases Action.exec (runner.releaseResource resource) state with ⟨thrown | _, after⟩ <;> rfl
  refine Action.ext fun state => ?_
  rw [Action.exec_bind_ok (Action.exec_attempt _ _), Action.exec_bind_ok (Action.exec_attempt _ _)]
  rw [Action.exec_bind_ok (Action.exec_attempt handled state)]
  rcases Action.exec handled state with ⟨thrown | _, after⟩
  · exact returned _
  · exact returned _

/-- Without interruption the SQS runner's program for a message does what the runner does. -/
theorem interpret_sqs_receive (topic : String) (message : SqsMessage) :
    (Sqs.receive (Setup.of runner) topic message).interpret (serve runner) =
      SqsRunner.receive runner topic message := by
  rw [Sqs.receive, SqsRunner.receive]
  cases message.body with
  | none => rfl
  | some payload =>
      simp only [Sqs.processMessage, SqsRunner.processMessage, interpret_bind, interpret_perform]
      have looked : serve runner Call.shouldTerminate = pure runner.shouldTerminate := rfl
      rw [looked, pure_bind]
      cases runner.shouldTerminate with
      | true => rfl
      | false =>
          simp only [Bool.false_eq_true, if_false, interpret_bind, interpret_perform,
            interpret_ensure, interpret_attempt, interpret_release, interpret_ofExcept,
            Sqs.handleOrReport, interpret_sqs_handleMessage]
          refine bind_congr fun resource => bind_congr fun _ => ?_
          refine Eq.trans ?_ (finally_eq runner _ topic resource)
          refine congrArg (· >>= _) (congrArg Action.attempt (bind_congr fun outcome => ?_))
          cases outcome <;> rfl

theorem interpret_redis_handleMessage (topic : String) (received : RedisMessage) :
    (Redis.handleMessage (Setup.of runner) topic received).interpret (serve runner) =
      RedisRunner.handleMessage runner topic received := by
  rw [Redis.handleMessage, RedisRunner.handleMessage]
  cases received.message with
  | none => rfl
  | some params =>
      simp only [interpret_bind, interpret_ofExcept, interpret_emit, interpret_delete]
      refine bind_congr fun context => bind_congr fun _ => bind_congr fun _ => ?_
      have registry : (Setup.of runner).registry = runner.registry := rfl
      rw [registry]
      cases runner.registry.getTask topic with
      | none => rfl
      | some task =>
          simp only [interpret_bind, interpret_callback, interpret_ofExcept, interpret_emit,
            interpret_pure]
          rfl

/-- Without interruption the Redis runner's program for a message does what the runner does. -/
theorem interpret_redis_receive (topic : String) (received : RedisMessage) :
    (Redis.receive (Setup.of runner) topic received).interpret (serve runner) =
      RedisRunner.receive runner topic received := by
  simp only [Redis.receive, RedisRunner.receive, interpret_bind, interpret_attempt,
    interpret_perform]
  refine bind_congr fun acquired => ?_
  cases acquired with
  | error thrown => exact interpret_emit runner _ _
  | ok resource =>
      simp only [interpret_bind, interpret_attempt, interpret_redis_handleMessage]
      refine bind_congr fun handled => ?_
      cases handled with
      | error thrown => simp only [interpret_bind, interpret_emit, interpret_release]
      | ok finished =>
          cases finished with
          | true => exact interpret_release runner resource
          | false => rfl

end Uninterrupted

end Batch

end Steveo
