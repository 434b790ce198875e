import Steveo.Messaging.Runner

/-!
# The call of the registered task

A runner to which the code outside it gives what it asks for calls the task registered for the
topic exactly once, with the arguments that its engine makes of the message body.
-/

namespace Steveo

open Steveo.Action

/-- The calls of tasks among the calls of a runner. -/
def subscriptions (calls : List RunnerCall) : List (String × Fields × Argument) :=
  calls.filterMap fun
    | .subscribe task payload argument => some (task, payload, argument)
    | _ => none

@[simp] theorem subscriptions_append (earlier later : List RunnerCall) :
    subscriptions (earlier ++ later) = subscriptions earlier ++ subscriptions later :=
  List.filterMap_append

theorem mem_subscriptions (calls : List RunnerCall) (task : String) (payload : Fields)
    (argument : Argument) :
    (task, payload, argument) ∈ subscriptions calls ↔
      .subscribe task payload argument ∈ calls := by
  simp only [subscriptions, List.mem_filterMap]
  constructor
  · rintro ⟨call, member, found⟩
    cases call with
    | subscribe name data context => cases found; exact member
    | _ => contradiction
  · exact fun member => ⟨_, member, rfl⟩

namespace Runner

variable {σ : Type} (runner : Runner σ)

/-- No task is called between two states of a consumer. -/
def NoSubscription (before after : Consumer σ) : Prop :=
  subscriptions after.calls = subscriptions before.calls

theorem noSubscription_effects : EffectRelation (NoSubscription (σ := σ)) :=
  ⟨fun _ => rfl, fun first second => second.trans first⟩

theorem noSubscription_silent : Silent (NoSubscription (σ := σ)) := by
  intro call other consumer
  cases call with
  | subscribe task payload argument => exact absurd rfl (other task payload argument)
  | _ => simp [NoSubscription, record, Consumer.called, subscriptions]

theorem onTasks_noSubscription {α : Type} (action : Action σ α) :
    Preserves NoSubscription (onTasks action) :=
  fun _ => rfl

/-- Whatever follows the call of a task without calling another leaves that one call. -/
theorem subscriptions_subscribe {α : Type} (task : RegistryElem (Callback σ)) (payload : Fields)
    (argument : Argument) {next : Unit → Action (Consumer σ) α}
    (quiet : ∀ value, Preserves NoSubscription (next value)) (consumer : Consumer σ) :
    subscriptions (exec (subscribe task payload argument >>= next) consumer).2.calls =
      subscriptions consumer.calls ++ [(task.name, payload, argument)] := by
  have rest : Preserves NoSubscription (onTasks (task.subscribe payload argument) >>= next) :=
    noSubscription_effects.bind (onTasks_noSubscription _) quiet
  have called : exec (record (.subscribe task.name payload argument)) consumer =
      (.ok (), consumer.called (.subscribe task.name payload argument)) := rfl
  rw [subscribe, bind_assoc, exec_bind_ok called, rest, Consumer.called, subscriptions_append]
  rfl

variable {runner}

/-- The calls of tasks that handling one message adds. -/
def Adds (added : List (String × Fields × Argument)) {α : Type} (action : Action (Consumer σ) α) :
    Prop :=
  ∀ consumer, subscriptions (exec action consumer).2.calls = subscriptions consumer.calls ++ added

theorem Adds.after {α β : Type} {added : List (String × Fields × Argument)}
    {action : Action (Consumer σ) α} {next : α → Action (Consumer σ) β} {value : α}
    (later : Adds added (next value)) (quiet : Preserves NoSubscription action)
    (returns : ∀ consumer, (exec action consumer).1 = .ok value) :
    Adds added (action >>= next) := by
  intro consumer
  have returned := returns consumer
  have same := quiet consumer
  rcases result : exec action consumer with ⟨outcome, middle⟩
  rw [result] at returned same
  obtain rfl : outcome = .ok value := returned
  rw [exec_bind_ok result, later middle, same]

theorem Adds.before {α β : Type} {added : List (String × Fields × Argument)}
    {action : Action (Consumer σ) α} {next : α → Action (Consumer σ) β}
    (adds : Adds added action) (quiet : ∀ value, Preserves NoSubscription (next value)) :
    Adds added (action >>= next) := by
  intro consumer
  have here := adds consumer
  rw [exec_bind]
  rcases result : exec action consumer with ⟨outcome, middle⟩
  rw [result] at here
  cases outcome with
  | ok value => exact (quiet value middle).trans here
  | error thrown => exact here

theorem Adds.attempt {α : Type} {added : List (String × Fields × Argument)}
    {action : Action (Consumer σ) α} (adds : Adds added action) :
    Adds added (Action.attempt action) :=
  adds

/-- The call of a task with the arguments that were computed for it, if they could be. -/
def calledWith (task : String) :
    Except String (Fields × Argument) → List (String × Fields × Argument)
  | .ok (payload, argument) => [(task, payload, argument)]
  | .error _ => []

theorem adds_nil {α : Type} {action : Action (Consumer σ) α}
    (quiet : Preserves NoSubscription action) : Adds [] action := by
  intro consumer
  rw [List.append_nil]
  exact quiet consumer

/-! ### The steps of a runner that serves -/

section Serving

variable (serves : runner.Serves) {topic : String} {task : RegistryElem (Callback σ)}
  (registered : runner.registry.getTask topic = some (.own task)) {body : Fields}

theorem emit_noSubscription (event topic : String) :
    Preserves NoSubscription (emit event topic : Action (Consumer σ) Unit) :=
  emit_preserves noSubscription_silent event topic

theorem deleteMessage_noSubscription (topic : String) (message : SqsMessage) :
    Preserves NoSubscription (SqsRunner.deleteMessage runner topic message) :=
  runner.deleteMessage_preserves noSubscription_effects noSubscription_silent topic message

include serves

theorem delete_returns (queue handle : String) (consumer : Consumer σ) :
    (exec (runner.delete queue handle) consumer).1 = .ok () := by
  rw [delete, serves.deletes]
  rfl

theorem deleteMessage_returns (topic : String) (message : SqsMessage) (consumer : Consumer σ) :
    (exec (SqsRunner.deleteMessage runner topic message) consumer).1 = .ok () := by
  rw [SqsRunner.deleteMessage]
  split
  · rfl
  · rfl
  · exact delete_returns serves _ _ consumer

theorem runIf_deleteMessage_returns (check : Bool) (topic : String) (message : SqsMessage)
    (consumer : Consumer σ) :
    (exec (runIf check (SqsRunner.deleteMessage runner topic message)) consumer).1 = .ok () := by
  cases check with
  | true => exact deleteMessage_returns serves topic message consumer
  | false => rfl

theorem acquireResource_returns :
    ∃ resource, ∀ consumer, (exec runner.acquireResource consumer).1 = .ok resource := by
  obtain ⟨resource, acquired⟩ := serves.acquires
  refine ⟨resource, fun consumer => ?_⟩
  rw [acquireResource, acquired]
  rfl

theorem sqs_adds (registered : runner.registry.getTask topic = some (.own task))
    (handle : Option String) :
    Adds (calledWith task.name (MessageEngine.sqs.presented runner.arrival body))
      (SqsRunner.receive runner topic ⟨some (.obj body), handle⟩) := by
  let message : SqsMessage := ⟨some (.obj body), handle⟩
  have handles : Adds (calledWith task.name (MessageEngine.sqs.presented runner.arrival body))
      (SqsRunner.handleMessage runner message topic (.obj body)) := by
    rw [SqsRunner.handleMessage, context, registered, MessageEngine.presented]
    cases getContext runner.arrival (.obj body) with
    | error thrown => exact adds_nil (noSubscription_effects.throw thrown)
    | ok runnerContext =>
        apply Adds.after _ (noSubscription_effects.ofExcept _) fun _ => rfl
        apply Adds.after _ (emit_noSubscription _ _) fun _ => rfl
        apply Adds.after _
          (noSubscription_effects.runIf _ (deleteMessage_noSubscription topic message))
          (runIf_deleteMessage_returns serves _ topic message)
        apply subscriptions_subscribe
        intro _
        apply noSubscription_effects.bind
          (noSubscription_effects.runIf _ (deleteMessage_noSubscription topic message))
        intro _
        exact noSubscription_effects.bind (noSubscription_effects.ofExcept _)
          fun _ => emit_noSubscription _ _
  obtain ⟨resource, acquired⟩ := acquireResource_returns serves
  have releases := runner.releaseResource_preserves noSubscription_effects noSubscription_silent
    resource
  suffices processes : Adds (calledWith task.name (MessageEngine.sqs.presented runner.arrival body))
      (SqsRunner.processMessage runner message topic (.obj body)) from processes
  rw [SqsRunner.processMessage, serves.running]
  apply Adds.after _ (runner.acquireResource_preserves noSubscription_effects noSubscription_silent)
    acquired
  apply Adds.after _ (noSubscription_effects.ensure _ _) fun _ => rfl
  apply Adds.before handles.attempt
  intro outcome
  cases outcome with
  | ok _ => exact releases
  | error _ => exact noSubscription_effects.bind (emit_noSubscription _ _) fun _ => releases

theorem redis_adds (registered : runner.registry.getTask topic = some (.own task)) (id : String) :
    Adds (calledWith task.name (MessageEngine.redis.presented runner.arrival body))
      (RedisRunner.receive runner topic ⟨id, some (.obj body)⟩) := by
  have handles : Adds (calledWith task.name (MessageEngine.redis.presented runner.arrival body))
      (RedisRunner.handleMessage runner topic ⟨id, some (.obj body)⟩) := by
    rw [RedisRunner.handleMessage, registered, MessageEngine.presented]
    simp only [context]
    cases getContext runner.arrival (.obj body) with
    | error thrown => exact adds_nil (noSubscription_effects.throw thrown)
    | ok runnerContext =>
        apply Adds.after _ (noSubscription_effects.ofExcept _) fun _ => rfl
        apply Adds.after _ (emit_noSubscription _ _) fun _ => rfl
        apply Adds.after _
          (runner.delete_preserves noSubscription_effects noSubscription_silent topic id)
          (delete_returns serves topic id)
        apply subscriptions_subscribe
        intro _
        apply noSubscription_effects.bind (noSubscription_effects.ofExcept _)
        intro _
        exact noSubscription_effects.bind (emit_noSubscription _ _)
          fun _ => noSubscription_effects.pure _
  obtain ⟨resource, acquired⟩ := acquireResource_returns serves
  have releases := runner.releaseResource_preserves noSubscription_effects noSubscription_silent
    resource
  have acquires := runner.acquireResource_preserves noSubscription_effects noSubscription_silent
  apply Adds.after _ (EffectRelation.attempt acquires)
    fun consumer => congrArg Except.ok (acquired consumer)
  apply Adds.before handles.attempt
  intro outcome
  cases outcome with
  | ok handled =>
      cases handled with
      | true => exact releases
      | false => exact noSubscription_effects.pure _
  | error thrown => exact noSubscription_effects.bind (emit_noSubscription _ _) fun _ => releases

end Serving

theorem kafka_adds {topic : String} {task : RegistryElem (Callback σ)} {body : Fields}
    (registered : runner.registry.getTask topic = some (.own task)) (partition offset : Nat) :
    Adds (calledWith task.name (MessageEngine.kafka.presented runner.arrival body))
      (KafkaRunner.receive runner ⟨⟨topic, partition, offset⟩, some (.obj body)⟩) := by
  have handles : Adds (calledWith task.name (MessageEngine.kafka.presented runner.arrival body))
      (KafkaRunner.handleMessage runner ⟨⟨topic, partition, offset⟩, some (.obj body)⟩) := by
    rw [KafkaRunner.handleMessage, registered, MessageEngine.presented]
    simp only [context]
    cases getContext runner.arrival (.obj body) with
    | error thrown => exact adds_nil (noSubscription_effects.throw thrown)
    | ok runnerContext =>
        apply Adds.after _ (noSubscription_effects.ofExcept _) fun _ => rfl
        apply Adds.after _ (emit_noSubscription _ _) fun _ => rfl
        apply Adds.after _ (noSubscription_effects.ofExcept _) fun _ => rfl
        apply subscriptions_subscribe
        intro _
        exact noSubscription_effects.bind (noSubscription_effects.ofExcept _)
          fun _ => emit_noSubscription _ _
  apply Adds.before handles.attempt
  intro outcome
  cases outcome with
  | ok _ => exact noSubscription_effects.pure _
  | error thrown =>
      exact noSubscription_effects.bind (emit_noSubscription _ _)
        fun _ => noSubscription_effects.throw thrown

/-- A serving runner calls the registered task once, with the arguments its engine presents. -/
theorem receive_adds (serves : runner.Serves) (engine : MessageEngine) (receipt : Receipt)
    {topic : String} {task : RegistryElem (Callback σ)} {body : Fields}
    (registered : runner.registry.getTask topic = some (.own task)) :
    Adds (calledWith task.name (engine.presented runner.arrival body))
      (engine.receive runner receipt topic body) := by
  cases engine with
  | sqs => exact sqs_adds serves registered receipt.receiptHandle
  | kafka => exact kafka_adds registered receipt.partition receipt.offset
  | redis => exact redis_adds serves registered receipt.id

end Runner

end Steveo
