import Steveo.Runtime.Configuration
import Steveo.Workflow.Engine

/-!
# Topics on which a workflow is subscribed

Declaring a workflow registers one topic for the workflow and one for every step.  The messages of
the workflow are sent to topics that are derived from the names of its steps once more.
-/

namespace Steveo

/-- The part of the configuration that an instance keeps which determines topic names. -/
structure TopicConfiguration where
  queuePrefix : String := ""
  upperCaseNames : Bool := true

/-- What a kept configuration says about topic names. -/
def TopicConfiguration.ofKept (kept : Fields) : TopicConfiguration where
  queuePrefix :=
    match kept.get "queuePrefix" with
    | some (.str queuePrefix) => queuePrefix
    | _ => ""
  upperCaseNames := truthy (kept.get "upperCaseNames")

/-- An instance that is told nothing about names upper-cases them and puts nothing before them. -/
theorem TopicConfiguration.ofKept_default {environment : Environment} {config kept : Fields}
    (built : Configuration.getConfig environment config = .ok kept)
    (unprefixed : environment.queuePrefix = none ∧ config.get "queuePrefix" = none)
    (silent : config.get "upperCaseNames" = none) :
    TopicConfiguration.ofKept kept = {} := by
  have queuePrefix : kept.get "queuePrefix" = some (.str "") := by
    refine Configuration.getConfig_common built ?_
    simp [Configuration.commonParameters, Configuration.get_object_cons, unprefixed,
      Configuration.orElse, nullish]
  have upperCaseNames : kept.get "upperCaseNames" = some (.bool true) := by
    refine Configuration.getConfig_common built ?_
    simp [Configuration.commonParameters, Configuration.get_object_cons, silent,
      Configuration.orElse, nullish]
  simp [TopicConfiguration.ofKept, queuePrefix, upperCaseNames, truthy]

namespace Workflow

variable {η : Type}

/-- The names under which something is found on a workflow besides the fields of an element. -/
def members : List String :=
  ["steps", "props", "logger", "registry", "producer", "storage", "next", "publish",
    "publishNextStep", "publishInternal", "processPayload", "executeNextStep", "executeRollback",
    "getPreviousStep", "getNextStep", "getStepIndex", "formatStepMessage", "loadState"]

/-- Declare a workflow and register it under its topic. -/
def flow (configuration : TopicConfiguration) (host : Host) (subscribe : η) (registry : Registry η)
    (name : String) (options : WorkflowOptions := {}) : Except String (Registry η × Workflow) :=
  let topic := formatTopicName host.toUpperCase name
    { queueName := options.queueName
      queuePrefix := some configuration.queuePrefix
      upperCaseNames := some configuration.upperCaseNames }
  if name = "" then
    .error "AssertionError: Name must be specified"
  else
    .ok (registry.addNewTask { name, topic, subscribe, options := options.toTaskOptions, members },
      { name, topic, options, host, steps := [] })

/-- The topic under which a step is registered. -/
def stepTopic (workflow : Workflow) (step : Step) : String :=
  step.topic.getD (workflow.formatStepMessage step.name)

/-- Add a step to a workflow and register it. -/
def next (subscribe : η) (declared : Registry η × Workflow) (step : Step) :
    Registry η × Workflow :=
  (declared.1.addNewTask
      { name := declared.2.formatStepMessage step.name
        topic := declared.2.stepTopic step
        subscribe
        options := step.options },
    { declared.2 with steps := declared.2.steps ++ [step] })

/-- Declare a workflow together with its steps. -/
def declare (configuration : TopicConfiguration) (host : Host) (subscribe : η)
    (registry : Registry η) (name : String) (options : WorkflowOptions) (steps : List Step) :
    Except String (Registry η × Workflow) :=
  (flow configuration host subscribe registry name options).map fun declared =>
    steps.foldl (next subscribe) declared

/-- The topics registered by a workflow. -/
def topics (workflow : Workflow) : List String :=
  workflow.topic :: workflow.steps.map workflow.stepTopic

/-- The registered handler of a topic is the given one. -/
def Subscribed (registry : Registry η) (subscribe : η) (topic : String) : Prop :=
  ∃ task, registry.getTask topic = some (.own task) ∧ task.subscribe = subscribe

/-- Every message that the workflow can publish is sent to a topic on which it is subscribed. -/
structure MessagesSubscribed (registry : Registry η) (subscribe : η) (workflow : Workflow) :
    Prop where
  start : ∀ payload message, workflow.startMessage payload = some message →
    Subscribed registry subscribe message.topic
  next : ∀ index current next workflowId result, workflow.steps[index]? = some current →
    workflow.steps[index + 1]? = some next →
      Subscribed registry subscribe (workflow.stepMessage workflowId current.name result next).topic

theorem subscribed_addNewTask (registry : Registry η) (task : RegistryElem η) (topic : String) :
    Subscribed (registry.addNewTask task) task.subscribe topic ↔
      topic = task.topic ∨ Subscribed registry task.subscribe topic := by
  by_cases same : topic = task.topic
  · simp [Subscribed, same]
  · simp [Subscribed, same]

/-- The steps added to a workflow do not change how its topics are formatted. -/
theorem foldl_next (subscribe : η) (steps : List Step) (registry : Registry η)
    (workflow : Workflow) :
    (steps.foldl (next subscribe) (registry, workflow)).2 =
      { workflow with steps := workflow.steps ++ steps } := by
  induction steps generalizing registry workflow with
  | nil => simp
  | cons step steps induction =>
      rw [List.foldl_cons, next, induction]
      simp

theorem subscribed_foldl_next (subscribe : η) (steps : List Step) (registry : Registry η)
    (workflow : Workflow) (topic : String) :
    Subscribed (steps.foldl (next subscribe) (registry, workflow)).1 subscribe topic ↔
      topic ∈ steps.map workflow.stepTopic ∨ Subscribed registry subscribe topic := by
  induction steps generalizing registry workflow with
  | nil => simp
  | cons step steps induction =>
      rw [List.foldl_cons, next, induction, subscribed_addNewTask, List.map_cons, List.mem_cons]
      change _ ∈ steps.map workflow.stepTopic ∨ _ ↔ _
      tauto

/-- A workflow is subscribed exactly on the topics that it registered. -/
theorem subscribed_iff_mem_topics {configuration : TopicConfiguration} {host : Host}
    {subscribe : η} {registry declared : Registry η} {name : String} {options : WorkflowOptions}
    {steps : List Step} {workflow : Workflow}
    (declares : declare configuration host subscribe registry name options steps =
      .ok (declared, workflow))
    (unknown : ∀ topic, ¬ Subscribed registry subscribe topic) (topic : String) :
    Subscribed declared subscribe topic ↔ topic ∈ workflow.topics := by
  rw [declare, flow] at declares
  split at declares
  · simp [Except.map] at declares
  · have equal := Except.ok.inj declares
    have registered := congrArg Prod.fst equal
    have built := congrArg Prod.snd equal
    simp only at registered built
    rw [foldl_next] at built
    subst registered built
    rw [subscribed_foldl_next, subscribed_addNewTask, topics, List.mem_cons, List.nil_append]
    have apart := unknown topic
    change topic ∈ steps.map _ ∨ _ ↔ _ ∨ topic ∈ steps.map _
    tauto

/-- Every message of a workflow has a subscriber exactly if the name of its first step is one of
the topics that the workflow registered, and so is the formatted name of every later step that is
registered under a topic of its own. -/
theorem messagesSubscribed_iff {configuration : TopicConfiguration} {host : Host} {subscribe : η}
    {registry declared : Registry η} {name : String} {options : WorkflowOptions}
    {steps : List Step} {workflow : Workflow}
    (declares : declare configuration host subscribe registry name options steps =
      .ok (declared, workflow))
    (unknown : ∀ topic, ¬ Subscribed registry subscribe topic) :
    MessagesSubscribed declared subscribe workflow ↔
      (∀ step, workflow.steps[0]? = some step → step.name ∈ workflow.topics) ∧
        ∀ index step, workflow.steps[index + 1]? = some step → step.topic ≠ none →
          workflow.formatStepMessage step.name ∈ workflow.topics := by
  have subscribed := subscribed_iff_mem_topics declares unknown
  constructor
  · rintro ⟨start, later⟩
    refine ⟨fun step first => ?_, fun index step step_at _ => ?_⟩
    · have message : workflow.startMessage [] = some
          { workflowId := "", previous := "", result := none, step := step.name
            topic := step.name, payload := [] } := by
        rw [startMessage, List.head?_eq_getElem?, first]
        rfl
      exact (subscribed step.name).mp (start [] _ message)
    · obtain ⟨bound, -⟩ := List.getElem?_eq_some_iff.mp step_at
      have current := List.getElem?_eq_getElem (l := workflow.steps) (i := index) (by omega)
      exact (subscribed _).mp (later index _ step "" none current step_at)
  · rintro ⟨first, overridden⟩
    constructor
    · intro payload message starts
      obtain ⟨step, head, rfl⟩ := Option.map_eq_some_iff.mp starts
      rw [List.head?_eq_getElem?] at head
      exact (subscribed step.name).mpr (first step head)
    · intro index current step workflowId result _ at_next
      rw [subscribed]
      cases override : step.topic with
      | some topic => exact overridden index step at_next (by simp [override])
      | none =>
          refine List.mem_cons_of_mem _ (List.mem_map.mpr ⟨step, List.mem_of_getElem? at_next, ?_⟩)
          simp [stepTopic, override, stepMessage]

/-- A host whose upper-casing knows the letters of the ASCII range. -/
def asciiHost : Host :=
  { Host.accepting with toUpperCase := fun text => String.ofList (text.toList.map Char.toUpper) }

/-- Two steps without topics of their own. -/
def plainSteps : List Step := ["A", "B"].map fun name => { name, execute := fun _ _ => .ok none }

/-- With upper-cased names, a workflow that is named like its first step publishes to registered
topics only. -/
theorem named_like_step_subscribed :
    ∃ declared workflow, declare {} asciiHost () Registry.empty "A" {} plainSteps =
      .ok (declared, workflow) ∧ MessagesSubscribed declared () workflow := by
  rcases declares : declare {} asciiHost () Registry.empty "A" {} plainSteps with
    message | ⟨declared, workflow⟩
  · cases declares
  · have built : workflow.topic = "A" ∧ workflow.steps = plainSteps := by
      obtain ⟨-, rfl⟩ := Prod.mk.inj (Except.ok.inj declares)
      exact ⟨by decide +kernel, rfl⟩
    refine ⟨declared, workflow, rfl, (messagesSubscribed_iff declares fun topic => ?_).mpr ?_⟩
    · simp [Subscribed, Registry.empty]
    · rw [topics, built.1, built.2]
      refine ⟨fun step first => ?_, fun index step step_at override => ?_⟩
      · obtain rfl := Option.some.inj first
        exact List.mem_cons_self
      · obtain ⟨name, -, rfl⟩ := List.mem_map.mp (List.mem_of_getElem? step_at)
        exact absurd rfl override

/-- A workflow with another name publishes its first message to a topic that nobody has
registered. -/
theorem named_apart_unsubscribed :
    ∃ declared workflow, declare {} asciiHost () Registry.empty "flow" {} plainSteps =
        .ok (declared, workflow) ∧ declared.getTask "A" = none ∧
          ¬ MessagesSubscribed declared () workflow := by
  have missing : ∀ declared workflow,
      declare {} asciiHost () Registry.empty "flow" {} plainSteps = .ok (declared, workflow) →
        declared.getTask "A" = none := by
    intro declared workflow declares
    obtain ⟨rfl, -⟩ := Prod.mk.inj (Except.ok.inj declares)
    decide +kernel
  refine ⟨_, _, rfl, missing _ _ rfl, fun subscribed => ?_⟩
  obtain ⟨task, found, -⟩ := subscribed.start [] _ rfl
  cases (missing _ _ rfl).symm.trans found

end Workflow

end Steveo
