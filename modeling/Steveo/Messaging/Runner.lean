import Steveo.Library.Action
import Steveo.Runtime.Context
import Steveo.Runtime.Registry

/-!
# Runners

This file models how the SQS, Kafka and Redis runners handle one message: what they hand to the
task registered for the topic and what they do around that call.  No middleware is configured.
The tasks work on a state of their own.
-/

namespace Steveo

open Steveo.Action

/-- The observable calls of a runner. -/
inductive RunnerCall
  | acquire (resource : String)
  | release (resource : String)
  | deleteMessage (queue handle : String)
  | emit (event topic : String)
  | subscribe (task : String) (payload : Fields) (argument : Argument)

/-- What a runner works on: the calls it has made and the state of the tasks. -/
structure Consumer (σ : Type) where
  calls : List RunnerCall
  tasks : σ

/-- A runner that has made no calls. -/
def Consumer.start {σ : Type} (tasks : σ) : Consumer σ := ⟨[], tasks⟩

/-- The consumer with one more call. -/
def Consumer.called {σ : Type} (consumer : Consumer σ) (call : RunnerCall) : Consumer σ :=
  { consumer with calls := consumer.calls ++ [call] }

/-- The callback of a task. -/
abbrev Callback (σ : Type) := Fields → Argument → Action σ Unit

/-- A runner with the answers of the code outside it. -/
structure Runner (σ : Type) where
  registry : Registry (Callback σ)
  /-- Whether the configuration delays deletion until a message is handled. -/
  waitToCommit : Option Bool
  /-- Whether the manager is terminating or terminated. -/
  shouldTerminate : Bool
  /-- The pool's answer to a request for a resource. -/
  acquire : Except String String
  /-- The pool's answer to the return of a resource. -/
  release : Except String Unit
  /-- The queue's answer to the deletion of a message. -/
  deletion : Except String Unit
  arrival : Arrival

namespace Runner

variable {σ : Type} (runner : Runner σ)

/-- A running runner to which the code outside it gives what it asks for. -/
structure Serves : Prop where
  running : runner.shouldTerminate = false
  acquires : ∃ resource, runner.acquire = .ok resource
  deletes : runner.deletion = .ok ()

/-- A runner for a registry, with one resource and a clock that stands still. -/
def serving (registry : Registry (Callback σ)) : Runner σ where
  registry := registry
  waitToCommit := none
  shouldTerminate := false
  acquire := .ok "1"
  release := .ok ()
  deletion := .ok ()
  arrival := ⟨0, fun _ => none, fun _ => ""⟩

/-- Make an observable call. -/
def record (call : RunnerCall) : Action (Consumer σ) Unit :=
  modify fun consumer => consumer.called call

/-- Notify the listeners of the registry. -/
def emit (event topic : String) : Action (Consumer σ) Unit := record (.emit event topic)

/-- Run the code of a task, which keeps to its own state. -/
def onTasks {α : Type} (action : Action σ α) : Action (Consumer σ) α :=
  ExceptT.mk fun consumer =>
    ((exec action consumer.tasks).1, { consumer with tasks := (exec action consumer.tasks).2 })

/-- Take a resource from the pool. -/
def acquireResource : Action (Consumer σ) String := do
  let resource ← ofExcept runner.acquire
  record (.acquire resource)
  pure resource

/-- Return a resource to the pool. -/
def releaseResource (resource : String) : Action (Consumer σ) Unit := do
  record (.release resource)
  ofExcept runner.release

/-- Call the callback of a task. -/
def subscribe (task : RegistryElem (Callback σ)) (payload : Fields) (argument : Argument) :
    Action (Consumer σ) Unit := do
  record (.subscribe task.name payload argument)
  onTasks (task.subscribe payload argument)

/-- Call the callback of what is found under a topic: what is inherited has none. -/
def callback (task : Found (Callback σ)) (payload : Fields) (argument : Argument) :
    Action (Consumer σ) Unit :=
  match task with
  | .own task => subscribe task payload argument
  | .inherited => throw "TypeError: task.subscribe is not a function"

/-- Delete a message from a queue. -/
def delete (queue handle : String) : Action (Consumer σ) Unit := do
  record (.deleteMessage queue handle)
  ofExcept runner.deletion

/-- The context of a message body. -/
def context (params : Json) : Action (Consumer σ) Context :=
  ofExcept (getContext runner.arrival params)

end Runner

/-- A message that was received from an SQS queue. -/
structure SqsMessage where
  /-- The parsed body; `none` when it is not JSON. -/
  body : Option Json
  receiptHandle : Option String

namespace SqsRunner

variable {σ : Type} (runner : Runner σ)

/-- The queue of a topic. -/
def getTopic (topic : String) : String :=
  if ((runner.registry.getTask topic).bind fun task => task.options.fifo).getD false then
    topic ++ ".fifo"
  else
    topic

/-- Delete a message that can be deleted. -/
def deleteMessage (topic : String) (message : SqsMessage) : Action (Consumer σ) Unit :=
  match message.receiptHandle with
  | none | some "" => pure ()
  | some handle => runner.delete (getTopic runner topic) handle

/-- Whether a message is deleted only after it has been handled. -/
def waitToCommit (topic : String) : Bool :=
  ((runner.registry.getTask topic).bind fun task => task.options.waitToCommit).getD false ||
    runner.waitToCommit.getD false

/-- The `try` block around the handling of one message. -/
def handleMessage (message : SqsMessage) (topic : String) (payload : Json) :
    Action (Consumer σ) Unit := do
  let runnerContext ← runner.context payload
  Runner.emit "runner_receive" topic
  runIf (!waitToCommit runner topic) (deleteMessage runner topic message)
  match runner.registry.getTask topic with
  | none => pure ()
  | some task =>
      Runner.callback task ((ownFields payload).without "_meta") (.context runnerContext)
      runIf (waitToCommit runner topic) (deleteMessage runner topic message)
      let _ ← runner.context payload
      Runner.emit "runner_complete" topic

/-- Handle one message whose body has been parsed. -/
def processMessage (message : SqsMessage) (topic : String) (payload : Json) :
    Action (Consumer σ) Unit :=
  if runner.shouldTerminate then
    pure ()
  else do
    let resource ← runner.acquireResource
    ensure (!nullish payload)
      "TypeError: Cannot destructure property '_meta' of 'payload' as it is null."
    match ← attempt (handleMessage runner message topic payload) with
    | .ok _ => pure ()
    | .error _ => Runner.emit "runner_failure" topic
    runner.releaseResource resource

/-- Handle one message of a batch. -/
def receive (topic : String) (message : SqsMessage) : Action (Consumer σ) Unit :=
  match message.body with
  | none => throw "SyntaxError: Unexpected token in JSON"
  | some payload => processMessage runner message topic payload

end SqsRunner

/-- A position in a Kafka partition. -/
structure TopicPartitionOffset where
  topic : String
  partition : Nat
  offset : Nat
  deriving DecidableEq

/-- A message that was consumed from a Kafka partition. -/
structure KafkaMessage extends TopicPartitionOffset where
  /-- The parsed value; `none` when it is not JSON. -/
  value : Option Json

namespace KafkaRunner

variable {σ : Type} (runner : Runner σ)

/-- The `try` block around the handling of one message. -/
def handleMessage (message : KafkaMessage) : Action (Consumer σ) Unit :=
  match message.value with
  | none => throw "JsonParsingError"
  | some payload => do
      let _ ← runner.context payload
      Runner.emit "runner_receive" message.topic
      match runner.registry.getTask message.topic with
      | none => pure ()
      | some task =>
          let data := (ownFields payload).without "_meta"
          let runnerContext ← runner.context payload
          Runner.callback task (data.spread [("value", .obj data)]) (.context runnerContext)
          let _ ← runner.context payload
          Runner.emit "runner_complete" message.topic

/-- Handle one message. -/
def receive (message : KafkaMessage) : Action (Consumer σ) Unit := do
  match ← attempt (handleMessage runner message) with
  | .ok _ => pure ()
  | .error thrown =>
      Runner.emit "runner_failure" message.topic
      throw thrown

end KafkaRunner

/-- A message that was received from a Redis queue. -/
structure RedisMessage where
  id : String
  /-- The parsed message text; `none` when it is not JSON. -/
  message : Option Json

namespace RedisRunner

variable {σ : Type} (runner : Runner σ)

/-- The `try` block once a resource is held.  It answers whether it has run to its end: the return
for an unknown task leaves the whole handler. -/
def handleMessage (topic : String) (received : RedisMessage) : Action (Consumer σ) Bool :=
  match received.message with
  | none => throw "SyntaxError: Unexpected token in JSON"
  | some params => do
      let _ ← runner.context params
      Runner.emit "runner_receive" topic
      runner.delete topic received.id
      match runner.registry.getTask topic with
      | none => pure false
      | some task =>
          Runner.callback task ((ownFields params).without "context")
            (.value ((params.get "context").getD .null))
          let _ ← runner.context params
          Runner.emit "runner_complete" topic
          pure true

/-- Handle one message. -/
def receive (topic : String) (received : RedisMessage) : Action (Consumer σ) Unit := do
  match ← attempt runner.acquireResource with
  | .error _ => Runner.emit "runner_failure" topic
  | .ok resource =>
      match ← attempt (handleMessage runner topic received) with
      | .ok true => runner.releaseResource resource
      | .ok false => pure ()
      | .error _ =>
          Runner.emit "runner_failure" topic
          runner.releaseResource resource

end RedisRunner

/-! ## The three engines side by side -/

/-- The engines for which there is a producer and a runner. -/
inductive MessageEngine
  | sqs
  | kafka
  | redis

/-- What the queue adds to a body that a runner receives. -/
structure Receipt where
  receiptHandle : Option String
  partition : Nat
  offset : Nat
  id : String

namespace MessageEngine

variable {σ : Type}

/-- Handle one message with the runner of an engine. -/
def receive (engine : MessageEngine) (runner : Runner σ) (receipt : Receipt) (topic : String)
    (body : Fields) : Action (Consumer σ) Unit :=
  match engine with
  | .sqs => SqsRunner.receive runner topic ⟨some (.obj body), receipt.receiptHandle⟩
  | .kafka =>
      KafkaRunner.receive runner ⟨⟨topic, receipt.partition, receipt.offset⟩, some (.obj body)⟩
  | .redis => RedisRunner.receive runner topic ⟨receipt.id, some (.obj body)⟩

/-- The arguments of a task's callback, unless the context of the body cannot be computed. -/
def presented (engine : MessageEngine) (arrival : Arrival) (body : Fields) :
    Except String (Fields × Argument) :=
  (getContext arrival (.obj body)).map fun runnerContext =>
    match engine with
    | .sqs => (body.without "_meta", .context runnerContext)
    | .kafka =>
        ((body.without "_meta").spread [("value", .obj (body.without "_meta"))],
          .context runnerContext)
    | .redis => (body.without "context", .value ((body.get "context").getD .null))

end MessageEngine

/-! ## Effects of a runner around the call of a task -/

namespace Runner

variable {σ : Type} (runner : Runner σ) {relation : Consumer σ → Consumer σ → Prop}

/-- The calls of a runner other than the call of a task. -/
def Silent (relation : Consumer σ → Consumer σ → Prop) : Prop :=
  ∀ call : RunnerCall, (∀ task payload argument, call ≠ .subscribe task payload argument) →
    Preserves relation (record call)

section Effects

variable (effects : EffectRelation relation) (silent : Silent relation)

include silent in
theorem emit_preserves (event topic : String) :
    Preserves relation (emit event topic : Action (Consumer σ) Unit) :=
  silent (.emit event topic) (by simp)

include effects silent

theorem acquireResource_preserves : Preserves relation runner.acquireResource := by
  apply effects.bind
  · exact effects.ofExcept _
  · intro resource
    apply effects.bind (silent (.acquire resource) (by simp))
    exact fun _ => effects.pure resource

theorem releaseResource_preserves (resource : String) :
    Preserves relation (runner.releaseResource resource) := by
  apply effects.bind (silent (.release resource) (by simp))
  exact fun _ => effects.ofExcept _

theorem delete_preserves (queue handle : String) :
    Preserves relation (runner.delete queue handle) := by
  apply effects.bind (silent (.deleteMessage queue handle) (by simp))
  exact fun _ => effects.ofExcept _

theorem deleteMessage_preserves (topic : String) (message : SqsMessage) :
    Preserves relation (SqsRunner.deleteMessage runner topic message) := by
  rw [SqsRunner.deleteMessage]
  split
  · exact effects.pure _
  · exact effects.pure _
  · exact runner.delete_preserves effects silent _ _

omit silent in
theorem callback_preserves {topic : String} {task : Found (Callback σ)}
    (subscribes : ∀ task, runner.registry.getTask topic = some (.own task) →
      ∀ payload argument, Preserves relation (subscribe task payload argument))
    (found : runner.registry.getTask topic = some task) (payload : Fields) (argument : Argument) :
    Preserves relation (callback task payload argument) := by
  cases task with
  | own task => exact subscribes task found payload argument
  | inherited => exact effects.throw _

theorem sqs_preserves {topic : String} (message : SqsMessage)
    (subscribes : ∀ task, runner.registry.getTask topic = some (.own task) →
      ∀ payload argument, Preserves relation (subscribe task payload argument)) :
    Preserves relation (SqsRunner.receive runner topic message) := by
  have deletes := runner.deleteMessage_preserves effects silent topic message
  have emits := emit_preserves silent
  have handles : ∀ payload,
      Preserves relation (SqsRunner.handleMessage runner message topic payload) := by
    intro payload
    rw [SqsRunner.handleMessage]
    apply effects.bind (effects.ofExcept _)
    intro runnerContext
    apply effects.bind (emits _ _)
    intro _
    apply effects.bind (effects.runIf _ deletes)
    intro _
    cases found : runner.registry.getTask topic with
    | none => exact effects.pure _
    | some task =>
        apply effects.bind (runner.callback_preserves effects subscribes found _ _)
        intro _
        apply effects.bind (effects.runIf _ deletes)
        intro _
        apply effects.bind (effects.ofExcept _)
        exact fun _ => emits _ _
  have processes : ∀ payload,
      Preserves relation (SqsRunner.processMessage runner message topic payload) := by
    intro payload
    rw [SqsRunner.processMessage]
    cases runner.shouldTerminate with
    | true => exact effects.pure _
    | false =>
        apply effects.bind (runner.acquireResource_preserves effects silent)
        intro resource
        apply effects.bind (effects.ensure _ _)
        intro _
        apply effects.bind (EffectRelation.attempt (handles payload))
        intro outcome
        have releases := runner.releaseResource_preserves effects silent resource
        cases outcome with
        | ok _ => exact releases
        | error _ => exact effects.bind (emits _ _) fun _ => releases
  rw [SqsRunner.receive]
  cases message.body with
  | none => exact effects.throw _
  | some payload => exact processes payload

theorem kafka_preserves (message : KafkaMessage)
    (subscribes : ∀ task, runner.registry.getTask message.topic = some (.own task) →
      ∀ payload argument, Preserves relation (subscribe task payload argument)) :
    Preserves relation (KafkaRunner.receive runner message) := by
  have emits := emit_preserves silent
  have handles : Preserves relation (KafkaRunner.handleMessage runner message) := by
    rw [KafkaRunner.handleMessage]
    cases message.value with
    | none => exact effects.throw _
    | some payload =>
        apply effects.bind (effects.ofExcept _)
        intro _
        apply effects.bind (emits _ _)
        intro _
        cases found : runner.registry.getTask message.topic with
        | none => exact effects.pure _
        | some task =>
            apply effects.bind (effects.ofExcept _)
            intro runnerContext
            apply effects.bind (runner.callback_preserves effects subscribes found _ _)
            intro _
            apply effects.bind (effects.ofExcept _)
            exact fun _ => emits _ _
  apply effects.bind (EffectRelation.attempt handles)
  intro outcome
  cases outcome with
  | ok _ => exact effects.pure _
  | error thrown => exact effects.bind (emits _ _) fun _ => effects.throw thrown

theorem redis_preserves {topic : String} (received : RedisMessage)
    (subscribes : ∀ task, runner.registry.getTask topic = some (.own task) →
      ∀ payload argument, Preserves relation (subscribe task payload argument)) :
    Preserves relation (RedisRunner.receive runner topic received) := by
  have emits := emit_preserves silent
  have handles : Preserves relation (RedisRunner.handleMessage runner topic received) := by
    rw [RedisRunner.handleMessage]
    cases received.message with
    | none => exact effects.throw _
    | some params =>
        apply effects.bind (effects.ofExcept _)
        intro _
        apply effects.bind (emits _ _)
        intro _
        apply effects.bind (runner.delete_preserves effects silent _ _)
        intro _
        cases found : runner.registry.getTask topic with
        | none => exact effects.pure _
        | some task =>
            apply effects.bind (runner.callback_preserves effects subscribes found _ _)
            intro _
            apply effects.bind (effects.ofExcept _)
            intro _
            exact effects.bind (emits _ _) fun _ => effects.pure _
  apply effects.bind (EffectRelation.attempt (runner.acquireResource_preserves effects silent))
  intro acquired
  cases acquired with
  | error _ => exact emits _ _
  | ok resource =>
      apply effects.bind (EffectRelation.attempt handles)
      intro outcome
      have releases := runner.releaseResource_preserves effects silent resource
      match outcome with
      | .ok true => exact releases
      | .ok false => exact effects.pure _
      | .error _ => exact effects.bind (emits _ _) fun _ => releases

/-- What every call of the registered task does, handling a message does as a whole. -/
theorem receive_preserves (engine : MessageEngine) (receipt : Receipt) {topic : String}
    (body : Fields)
    (subscribes : ∀ task, runner.registry.getTask topic = some (.own task) →
      ∀ payload argument, Preserves relation (subscribe task payload argument)) :
    Preserves relation (engine.receive runner receipt topic body) := by
  cases engine with
  | sqs => exact runner.sqs_preserves effects silent _ subscribes
  | kafka => exact runner.kafka_preserves effects silent _ subscribes
  | redis => exact runner.redis_preserves effects silent _ subscribes

end Effects

end Runner

end Steveo
