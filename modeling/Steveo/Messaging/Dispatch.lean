import Steveo.Messaging.Runner
import Steveo.Workflow.Engine

/-!
# Runners that drive workflows

A workflow is registered as the task of its topics, so that the second argument of its `subscribe`
is what a runner makes of the message metadata.  `subscribe` takes that argument for a logger.
-/

namespace Steveo

open Steveo.Action Engine

namespace Workflow

/-- The workflow as the registered task of a topic. -/
def callback (workflow : Workflow) : Callback Session := fun payload argument => do
  let _ ← workflow.subscribe payload (.plain argument)

/-- The calls by which the handling of a payload reaches the named execution or a new one. -/
def Reaches (payload : Fields) : Call → Prop
  | .loadWorkflow workflowId => payload.get "workflowId" = some (.str workflowId)
  | .workflowInit _ _ => truthy (payload.get "workflowId") = false
  | _ => False

/-- Handling a payload opened a transaction and reached the execution in it. -/
def Drives (payload : Fields) (before after : Session) : Prop :=
  ∃ calls, after.log = before.log ++ calls ∧ .transaction ∈ calls ∧
    ∃ call ∈ calls, Reaches payload call

/-- Nothing happened to the rows, and no call was made but to open a transaction. -/
structure Idles (before after : Session) : Prop where
  table : after.table = before.table
  log : ∃ calls, after.log = before.log ++ calls ∧ ∀ call ∈ calls, call = .transaction

namespace Idles

variable {before middle after : Session}

theorem refl (session : Session) : Idles session session := ⟨rfl, [], by simp, by simp⟩

theorem trans (first : Idles before middle) (second : Idles middle after) : Idles before after := by
  obtain ⟨earlier, middleLog, earlierOnly⟩ := first.log
  obtain ⟨later, afterLog, laterOnly⟩ := second.log
  refine ⟨second.table.trans first.table, earlier ++ later, ?_, ?_⟩
  · rw [afterLog, middleLog, List.append_assoc]
  · intro call member
    rcases List.mem_append.mp member with member | member
    · exact earlierOnly call member
    · exact laterOnly call member

theorem not_drives (idle : Idles before after) (payload : Fields) :
    ¬ Drives payload before after := by
  rintro ⟨calls, log, -, call, member, reached⟩
  obtain ⟨added, addedLog, only⟩ := idle.log
  obtain rfl : calls = added := List.append_cancel_left (log.symm.trans addedLog)
  obtain rfl := only call member
  exact reached

end Idles

theorem idles_effects : EffectRelation Idles := ⟨Idles.refl, Idles.trans⟩

theorem log_method_throws (method : String) (argument : Argument) (session : Session) :
    ∃ thrown, exec (LogArgument.call method (.plain argument)) session =
      (.error thrown, session) := by
  rw [LogArgument.call.eq_def]
  split
  · contradiction
  · exact ⟨_, rfl⟩
  · exact ⟨_, rfl⟩

/-- The transaction ends at its first statement and leaves the rows alone. -/
theorem transaction_throws (workflow : Workflow) (identifier : Json) (payload : Fields)
    (argument : Argument) (session : Session) :
    ∃ thrown, exec (transaction do
      (LogArgument.plain argument).child
      workflow.processPayload identifier payload) session =
        (.error thrown, session.logged .transaction) := by
  obtain ⟨thrown, child⟩ := log_method_throws "child" argument (session.logged .transaction)
  refine ⟨thrown, ?_⟩
  rw [transaction, exec_bind_ok (exec_record _ _), exec_bind_ok (exec_get _),
    exec_bind_ok (exec_attempt _ _), LogArgument.child, exec_bind_error child]
  rfl

theorem executionId_idles (workflow : Workflow) (payload : Fields) :
    Preserves Idles (workflow.executionId payload) := by
  have asks : Preserves Idles (outside workflow.host.v4) :=
    fun session => ⟨rfl, [], by simp, by simp⟩
  rw [executionId]
  split
  · exact idles_effects.bind asks fun _ => idles_effects.pure _
  · exact idles_effects.bind asks fun _ => idles_effects.pure _
  · exact idles_effects.pure _

/-- With anything but a logger, handling a message stops at the start of the transaction. -/
theorem subscribe_idles (workflow : Workflow) (payload : Fields) (argument : Argument) :
    Preserves Idles (workflow.subscribe payload (.plain argument)) := by
  rw [subscribe]
  apply idles_effects.bind
  · apply EffectRelation.attempt
    apply idles_effects.bind (idles_effects.ensure _ _)
    intro _
    apply idles_effects.bind (workflow.executionId_idles payload)
    intro identifier session
    obtain ⟨thrown, threw⟩ := workflow.transaction_throws identifier payload argument session
    rw [exec_bind_error threw]
    exact ⟨rfl, [.transaction], rfl, by simp⟩
  · intro handled
    cases handled with
    | ok identifier => exact idles_effects.pure identifier
    | error thrown =>
        intro session
        obtain ⟨raised, error⟩ := log_method_throws "error" argument session
        rw [LogArgument.error, exec_bind_error error]
        exact Idles.refl session

end Workflow

/-! ## From the tasks to the runner -/

namespace Runner

open Workflow

/-- The tasks of a consumer idle. -/
def TasksIdle (before after : Consumer Session) : Prop := Idles before.tasks after.tasks

theorem tasksIdle_effects : EffectRelation TasksIdle :=
  ⟨fun consumer => Idles.refl consumer.tasks, Idles.trans⟩

theorem callback_idles (workflow : Workflow) {task : RegistryElem (Callback Session)}
    (handles : task.subscribe = workflow.callback) (payload : Fields) (argument : Argument) :
    Preserves TasksIdle (subscribe task payload argument) := by
  apply tasksIdle_effects.bind
  · exact fun consumer => Idles.refl consumer.tasks
  · intro _ consumer
    have idle : Preserves Idles (workflow.callback payload argument) :=
      idles_effects.bind (workflow.subscribe_idles payload argument) fun _ => idles_effects.pure _
    rw [handles]
    exact idle consumer.tasks

/-- No runner drives a workflow, whatever the message: `subscribe` fails on its second argument. -/
theorem receive_not_drives (engine : MessageEngine) (runner : Runner Session)
    (workflow : Workflow) {topic : String} {task : RegistryElem (Callback Session)}
    (registered : runner.registry.getTask topic = some (.own task))
    (handles : task.subscribe = workflow.callback) (receipt : Receipt) (body : Fields)
    (consumer : Consumer Session) :
    ¬ Drives body consumer.tasks
      (exec (engine.receive runner receipt topic body) consumer).2.tasks := by
  have silent : Silent TasksIdle := fun call _ before => Idles.refl before.tasks
  have idle : Preserves TasksIdle (engine.receive runner receipt topic body) := by
    apply runner.receive_preserves tasksIdle_effects silent
    intro found foundHere payload argument
    obtain rfl := Property.own.inj (Option.some.inj (registered.symm.trans foundHere))
    exact callback_idles workflow handles payload argument
  exact (idle consumer).not_drives body

end Runner

namespace Workflow

/-- A workflow of one step that resolves to `true`. -/
def single : Workflow where
  name := "flow"
  topic := "flow"
  options := {}
  host := .accepting
  steps := [{ name := "a", execute := fun _ _ => .ok (some (.bool true)) }]

/-- That workflow as the registered task of its topic. -/
def singleTask : RegistryElem (Callback Session) :=
  { name := "flow", topic := "flow", subscribe := single.callback }

/-- A runner for that workflow. -/
def singleRunner : Runner Session := .serving (Registry.empty.addNewTask singleTask)

theorem single_kafka_not_driven :
    ¬ Drives [("_meta", .obj [("child", .bool true)])] ⟨fun _ => none, 0, []⟩
      (exec (MessageEngine.kafka.receive singleRunner ⟨none, 0, 0, "1"⟩ "flow"
        [("_meta", .obj [("child", .bool true)])])
          (Consumer.start ⟨fun _ => none, 0, []⟩)).2.tasks := by
  have registered : singleRunner.registry.getTask "flow" = some (.own singleTask) := rfl
  exact Runner.receive_not_drives .kafka _ single registered rfl ⟨none, 0, 0, "1"⟩ _ _

theorem single_sqs_only_opens :
    ¬ Drives [] ⟨fun _ => none, 0, []⟩
      (exec (MessageEngine.sqs.receive singleRunner ⟨some "handle", 0, 0, "1"⟩ "flow" [])
        (Consumer.start ⟨fun _ => none, 0, []⟩)).2.tasks := by
  rintro ⟨calls, log, -, call, member, reached⟩
  obtain rfl : [Call.transaction] = calls := log
  obtain rfl := List.mem_singleton.mp member
  exact reached

end Workflow

end Steveo
