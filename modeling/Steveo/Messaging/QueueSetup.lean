import Steveo.Library.Sharing
import Steveo.Messaging.Namespaces
import Steveo.Messaging.QueueCreation

/-!
# Creating the queues of an instance

When an instance is set up, its runner creates the queues of all registered topics, some of them at
the same time, and other instances may be doing the same.  An error is logged and holds nothing
back.  Once a creation has succeeded its queue exists, whoever has created it.
-/

namespace Steveo

namespace QueueSetup

open Async

/-! ## Creating one queue -/

/-- An answer confirms that a queue exists. -/
def Confirmed {κ : Type} {ω : κ → Type} (confirms : ∀ call, ω call → String → Prop)
    (entries : List (Entry ω)) (name : String) : Prop :=
  ∃ call value, (⟨call, .ok value⟩ : Entry ω) ∈ entries ∧ confirms call value name

theorem Confirmed.mono {κ : Type} {ω : κ → Type} {confirms : ∀ call, ω call → String → Prop}
    {entries more : List (Entry ω)} {name : String} (confirmed : Confirmed confirms entries name)
    (kept : entries ⊆ more) : Confirmed confirms more name := by
  obtain ⟨call, value, answered, exists_⟩ := confirmed
  exact ⟨call, value, kept answered, exists_⟩

/-- What has been confirmed stays confirmed. -/
theorem Confirmed.ends {κ : Type} {ω : κ → Type} {α : Type}
    {confirms : ∀ call, ω call → String → Prop}
    {admits : ∀ call, Except String (ω call) → Prop} {entries : List (Entry ω)} {name : String}
    (confirmed : Confirmed confirms entries name) (program : Async ω α) :
    program.Ends admits entries fun after _ => Confirmed confirms after name :=
  (ends_extending program entries).imp fun _ _ extended => confirmed.mono extended.subset

/-- How a runner creates the queues of a topic. -/
structure Engine {κ : Type} {ω : κ → Type} (confirms : ∀ call, ω call → String → Prop) where
  createQueue : String → Async ω Bool
  queues : String → List String
  /-- A creation does not succeed unless answers confirm the queues. -/
  confirmed : ∀ topic, (createQueue topic).Ends (fun _ _ => True) [] fun entries outcome =>
    ∀ created, outcome = .ok created → ∀ name ∈ queues topic, Confirmed confirms entries name

namespace Redis

/-- The calls of the Redis client. -/
inductive Call
  | listQueues
  | createQueue (parameters : QueueParameters)

abbrev Call.Answer : Call → Type
  | .listQueues => List String
  | .createQueue _ => Unit

/-- Create the queue of a topic, unless it is listed. -/
def createQueue (config : Fields) (topic : String) : Async Call.Answer Bool := do
  let queues ← perform Call.listQueues
  if (nonempty (queues.find? fun q => q = topic)).isSome then
    pure false
  else do
    perform (Call.createQueue (queueParameters config topic))
    pure true

def confirms : ∀ call : Call, call.Answer → String → Prop
  | .listQueues, queues, name => name ∈ queues
  | .createQueue parameters, _, name => name = parameters.qname

/-- A call whose failure leaves open whether a queue exists. -/
def Concerns : Call → String → Prop
  | .listQueues, _ => True
  | .createQueue parameters, name => name = parameters.qname

/-- A creation is told of its queue, or it is rejected by a call for it. -/
theorem createQueue_told (config : Fields) (topic : String) :
    (createQueue config topic).Ends (fun _ _ => True) [] fun entries outcome =>
      Confirmed confirms entries topic ∨ (∃ message, outcome = .error message) ∧
        ∃ call message, (⟨call, .error message⟩ : Entry Call.Answer) ∈ entries ∧
          Concerns call topic := by
  rw [createQueue, ends_bind, ends_perform]
  intro answer _
  cases answer with
  | error message => exact .inr ⟨⟨message, rfl⟩, .listQueues, message, by simp, trivial⟩
  | ok queues =>
      dsimp only
      split
      · rename_i listed
        obtain ⟨q, found⟩ := Option.isSome_iff_exists.mp listed
        have found := (Option.filter_eq_some_iff.mp found).1
        have same : q = topic := by simpa using List.find?_some found
        exact .inl ⟨.listQueues, queues, by simp, same ▸ List.mem_of_find?_eq_some found⟩
      · rw [ends_bind, ends_perform]
        intro answer _
        cases answer with
        | error message =>
            exact .inr ⟨⟨message, rfl⟩, .createQueue (queueParameters config topic), message,
              by simp, rfl⟩
        | ok value =>
            exact .inl ⟨.createQueue (queueParameters config topic), value, by simp, rfl⟩

theorem createQueue_confirmed (config : Fields) (topic : String) :
    (createQueue config topic).Ends (fun _ _ => True) [] fun entries outcome =>
      ∀ created, outcome = .ok created → ∀ name ∈ [topic], Confirmed confirms entries name := by
  refine (createQueue_told config topic).imp fun entries outcome told created same name own => ?_
  rw [List.mem_singleton.mp own]
  rcases told with confirmed | ⟨⟨message, rejected⟩, -⟩
  · exact confirmed
  · cases same.symm.trans rejected

def engine (config : Fields) : Engine confirms :=
  ⟨createQueue config, fun topic => [topic], createQueue_confirmed config⟩

end Redis

namespace Kafka

/-- A topic that is asked for. -/
structure CreateTopic where
  topic : String
  num_partitions : Nat
  replication_factor : Nat

abbrev CreateTopic.Answer : CreateTopic → Type := fun _ => Unit

/-- The options of the tasks that only Kafka reads, by topic, and their defaults. -/
structure Settings where
  num_partitions : String → Option Nat
  replication_factor : String → Option Nat
  defaultTopicPartitions : Option Nat
  defaultTopicReplicationFactor : Option Nat

/-- Create the topic of a task. -/
def createQueue (settings : Settings) (topic : String) :
    Async CreateTopic.Answer Bool := do
  let partitions := (settings.num_partitions topic <|> settings.defaultTopicPartitions).getD 1
  let replication :=
    (settings.replication_factor topic <|> settings.defaultTopicReplicationFactor).getD 1
  let _ ← perform ⟨topic, partitions, replication⟩
  pure true

def confirms (call : CreateTopic) (_ : call.Answer) (name : String) : Prop := name = call.topic

theorem createQueue_confirmed (settings : Settings) (topic : String) :
    (createQueue settings topic).Ends (fun _ _ => True) [] fun entries outcome =>
      ∀ created, outcome = .ok created → ∀ name ∈ [topic], Confirmed confirms entries name := by
  rw [createQueue, ends_bind, ends_perform]
  intro answer _
  cases answer with
  | error message => exact fun created same => by cases same
  | ok value =>
      exact fun created _ name own => ⟨_, value, List.mem_append_right _
        (List.mem_singleton_self _), List.mem_singleton.mp own⟩

def engine (settings : Settings) : Engine confirms :=
  ⟨createQueue settings, fun topic => [topic], createQueue_confirmed settings⟩

end Kafka

namespace Sqs

variable {κ : Type} {ω : κ → Type} {α σ η : Type}

/-- The calls of the SQS client as programs. -/
structure Client {κ : Type} (ω : κ → Type) where
  getQueueUrl : String → Async ω (Option String)
  createQueue : CreateQueueCommandInput → Async ω (Option String)
  getQueueAttributes : String → Async ω (Option String)

/-- A program whose error is reported under a text. -/
def reported (text : String) (program : Async ω α) : Async ω α := do
  match ← program.attempt with
  | .ok value => pure value
  | .error message => reject (text ++ message)

@[simp] theorem ends_reported (text : String) (program : Async ω α)
    {admits : ∀ call, Except String (ω call) → Prop} (entries : List (Entry ω))
    (post : List (Entry ω) → Except String α → Prop) :
    (reported text program).Ends admits entries post ↔
      program.Ends admits entries fun after outcome =>
        post after (outcome.mapError (text ++ ·)) := by
  rw [reported, ends_bind, ends_attempt]
  have same : ∀ after (outcome : Except String α),
      Ends admits (match outcome with
        | .ok value => pure value
        | .error message => (reject (text ++ message) : Async ω α)) after post ↔
        post after (outcome.mapError (text ++ ·)) := by
    intro after outcome
    cases outcome <;> rfl
  exact ⟨fun ends => ends.imp fun after outcome => (same after outcome).mp,
    fun ends => ends.imp fun after outcome => (same after outcome).mpr⟩

/-- The policy for the messages of a queue that cannot be handled, if the task registered under the
name of the queue wants one. -/
def getDeadLetterQueuePolicy (texts : QueueTexts) (registry : Registry η)
    (config : SqsConfiguration) (client : Client ω) (queueName : String) :
    Async ω (Option RedrivePolicy) :=
  match registry.getTask queueName with
  | none => pure none
  | some task =>
      if task.options.deadLetterQueue.getD false then do
        let dlQueueName := queueName ++ "_DLQ"
        let dlQueueUrl ← match found (← (client.getQueueUrl dlQueueName).attempt) with
          | some url => pure url
          | none => do
              let created ← reported
                ("Error: " ++ texts.label ++ "Failed to call SQS createQueue: ")
                (client.createQueue
                  { queueName := dlQueueName
                    receiveMessageWaitTimeSeconds :=
                      some (config.receiveMessageWaitTimeSeconds.getD "20")
                    messageRetentionPeriod :=
                      some (config.messageRetentionPeriod.getD "604800") })
              match nonempty created with
              | some url => pure url
              | none => reject ("Error: " ++ texts.unnamed)
        let dlQueueArn ← reported
          ("Error: " ++ texts.label ++ "Failed to call SQS getQueueAttributes: ")
          (client.getQueueAttributes dlQueueUrl)
        match nonempty dlQueueArn with
        | some arn =>
            pure (some
              { deadLetterTargetArn := arn
                maxReceiveCount := toString (task.options.maxReceiveCount.getD 5) })
        | none => reject ("Error: " ++ texts.label ++ "Failed to retrieve the DLQ ARN")
      else
        pure none

/-- The calls that the runner makes when it creates a queue. -/
inductive Call
  | getQueueUrl (queueName : String)
  | createQueue (input : CreateQueueCommandInput)
  | getQueueAttributes (queueUrl : String)

abbrev Call.Answer : Call → Type := fun _ => Option String

/-- The runner's client. -/
def client : Client Call.Answer where
  getQueueUrl queueName := perform (.getQueueUrl queueName)
  createQueue input := perform (.createQueue input)
  getQueueAttributes queueUrl := perform (.getQueueAttributes queueUrl)

/-- Create the queue of a topic. -/
def createQueue (registry : Registry η) (config : SqsConfiguration) (topic : String) :
    Async Call.Answer Bool := do
  let fifoAttribute := if registry.fifo topic then some "true" else none
  let redrivePolicy ← getDeadLetterQueuePolicy SqsRunner.texts registry config client topic
  let _ ← client.createQueue
    { queueName := if registry.fifo topic then topic ++ ".fifo" else topic
      receiveMessageWaitTimeSeconds := config.receiveMessageWaitTimeSeconds
      messageRetentionPeriod := config.messageRetentionPeriod
      fifoQueue := fifoAttribute
      contentBasedDeduplication := fifoAttribute
      redrivePolicy }
  pure true

/-! ### Programs that are not interrupted -/

section Interpretation

variable (serve : ∀ call : κ, Action σ (ω call))

@[simp] theorem interpret_reported (text : String) (program : Async ω α) :
    (reported text program).interpret serve = Steveo.reported text (program.interpret serve) := by
  rw [reported, Steveo.reported, interpret_bind, interpret_attempt]
  congr 1
  funext outcome
  cases outcome <;> rfl

/-- A program acts as a client of a service. -/
structure Client.ActsAs (client : Client ω) (actions : SqsClient σ) : Prop where
  getQueueUrl : ∀ queueName,
    (client.getQueueUrl queueName).interpret serve = actions.getQueueUrl queueName
  createQueue : ∀ input, (client.createQueue input).interpret serve = actions.createQueue input
  getQueueAttributes : ∀ queueUrl,
    (client.getQueueAttributes queueUrl).interpret serve = actions.getQueueAttributes queueUrl

theorem interpret_getDeadLetterQueuePolicy {client : Client ω} {actions : SqsClient σ}
    (acts : client.ActsAs serve actions) (texts : QueueTexts) (registry : Registry η)
    (config : SqsConfiguration) (queueName : String) :
    (getDeadLetterQueuePolicy texts registry config client queueName).interpret serve =
      Steveo.getDeadLetterQueuePolicy texts registry config actions queueName := by
  rw [getDeadLetterQueuePolicy, Steveo.getDeadLetterQueuePolicy]
  cases registry.getTask queueName with
  | none => rfl
  | some task =>
      dsimp only
      split
      · let policy arn := RedrivePolicy.mk arn (toString (task.options.maxReceiveCount.getD 5))
        have ends : ∀ url, interpret serve (do
              let arn ← reported
                ("Error: " ++ texts.label ++ "Failed to call SQS getQueueAttributes: ")
                (client.getQueueAttributes url)
              match nonempty arn with
              | some arn => pure (some (policy arn))
              | none => reject ("Error: " ++ texts.label ++ "Failed to retrieve the DLQ ARN")) =
            (do
              let arn ← Steveo.reported
                ("Error: " ++ texts.label ++ "Failed to call SQS getQueueAttributes: ")
                (actions.getQueueAttributes url)
              match nonempty arn with
              | some arn => pure (some (policy arn))
              | none =>
                  throw ("Error: " ++ texts.label ++ "Failed to retrieve the DLQ ARN")) := by
          intro url
          rw [interpret_bind, interpret_reported, acts.getQueueAttributes]
          congr 1
          funext arn
          cases nonempty arn <;> rfl
        rw [interpret_bind, interpret_attempt, acts.getQueueUrl]
        congr 1
        funext located
        cases found located with
        | some url => exact ends url
        | none =>
            dsimp only
            rw [interpret_bind, interpret_reported, acts.createQueue]
            congr 1
            funext created
            cases nonempty created with
            | some url => exact ends url
            | none => rfl
      · rfl

/-- A service carries out the calls of the runner. -/
def serving (actions : SqsClient σ) : ∀ _ : Call, Action σ (Option String)
  | .getQueueUrl queueName => actions.getQueueUrl queueName
  | .createQueue input => actions.createQueue input
  | .getQueueAttributes queueUrl => actions.getQueueAttributes queueUrl

theorem client_actsAs (actions : SqsClient σ) : client.ActsAs (serving actions) actions :=
  ⟨fun _ => interpret_perform _ _, fun _ => interpret_perform _ _, fun _ => interpret_perform _ _⟩

/-- A creation that is not interrupted is that of the runner. -/
theorem interpret_createQueue {τ : Type} (runner : Runner τ) (config : SqsConfiguration)
    (actions : SqsClient σ) (topic : String) :
    (createQueue runner.registry config topic).interpret (serving actions) =
      SqsRunner.createQueue runner config actions topic := by
  rw [createQueue, SqsRunner.createQueue, interpret_bind,
    interpret_getDeadLetterQueuePolicy _ (client_actsAs actions)]
  congr 1
  funext redrivePolicy
  rw [interpret_bind, (client_actsAs actions).createQueue]
  rfl

end Interpretation

/-! ### What a creation is told -/

/-- The queues that the answers of SQS confirm. -/
def confirms : ∀ call : Call, call.Answer → String → Prop
  | .getQueueUrl queueName, url, name => (nonempty url).isSome = true ∧ name = queueName
  | .createQueue input, _, name => name = input.queueName
  | .getQueueAttributes _, _, _ => False

/-- The queues of a topic: its own, and that of the messages that cannot be handled. -/
def queues (registry : Registry η) (topic : String) : List String :=
  (if registry.fifo topic then topic ++ ".fifo" else topic) ::
    if registry.deadLettered topic then [topic ++ "_DLQ"] else []

/-- A policy is not found out without the queue of the messages that cannot be handled. -/
theorem policy_confirmed (texts : QueueTexts) {registry : Registry η} (config : SqsConfiguration)
    {queueName : String} (wanted : registry.deadLettered queueName = true)
    (entries : List (Entry Call.Answer)) :
    (getDeadLetterQueuePolicy texts registry config client queueName).Ends (fun _ _ => True)
      entries fun after outcome => ∀ policy, outcome = .ok policy →
        Confirmed confirms after (queueName ++ "_DLQ") := by
  have stays : ∀ (program : Async Call.Answer (Option RedrivePolicy)) before,
      Confirmed confirms before (queueName ++ "_DLQ") →
        program.Ends (fun _ _ => True) before fun after outcome => ∀ policy,
          outcome = .ok policy → Confirmed confirms after (queueName ++ "_DLQ") :=
    fun program _ confirmed => (confirmed.ends program).imp fun _ _ kept _ _ => kept
  rw [getDeadLetterQueuePolicy]
  rw [Registry.deadLettered] at wanted
  cases known : registry.getTask queueName with
  | none =>
      rw [known] at wanted
      cases wanted
  | some task =>
      rw [known, Option.bind_some] at wanted
      dsimp only
      rw [if_pos wanted, ends_bind, ends_attempt]
      intro answer _
      rw [ends_settled]
      cases located : found answer with
      | some url =>
          obtain ⟨value, rfl, same⟩ : ∃ value, answer = .ok value ∧ nonempty value = some url := by
            cases answer with
            | error message => cases located
            | ok value => exact ⟨value, rfl, located⟩
          refine stays _ _ ⟨.getQueueUrl (queueName ++ "_DLQ"), value, by simp, ?_, rfl⟩
          rw [same]
          rfl
      | none =>
          dsimp only
          rw [located]
          dsimp only
          rw [ends_bind, ends_reported]
          intro created _
          rw [ends_settled]
          cases created with
          | error message => exact fun policy same => by cases same
          | ok value =>
              let input := QueueCreation.deadLetterInput config queueName
              have confirmed : Confirmed confirms (entries ++
                  [⟨.getQueueUrl (queueName ++ "_DLQ"), answer⟩] ++
                  [⟨.createQueue input, .ok value⟩]) (queueName ++ "_DLQ") :=
                ⟨.createQueue input, value, by simp, rfl⟩
              dsimp only [Except.mapError]
              cases nonempty value with
              | some url => exact stays _ _ confirmed
              | none => exact fun policy same => by cases same

/-- A creation does not succeed without the queues of the topic. -/
theorem createQueue_confirmed (registry : Registry η) (config : SqsConfiguration) (topic : String) :
    (createQueue registry config topic).Ends (fun _ _ => True) [] fun entries outcome =>
      ∀ created, outcome = .ok created → ∀ name ∈ queues registry topic,
        Confirmed confirms entries name := by
  rw [createQueue, ends_bind]
  have policy : (getDeadLetterQueuePolicy SqsRunner.texts registry config client topic).Ends
      (fun _ _ => True) [] fun entries outcome => ∀ policy, outcome = .ok policy →
        registry.deadLettered topic = true → Confirmed confirms entries (topic ++ "_DLQ") := by
    by_cases wanted : registry.deadLettered topic = true
    · exact (policy_confirmed _ config wanted []).imp fun _ _ holds policy same _ =>
        holds policy same
    · exact .of_forall _ fun _ _ _ _ other => absurd other wanted
  refine policy.imp fun entries outcome holds => ?_
  cases outcome with
  | error message => exact fun created same => by cases same
  | ok redrivePolicy =>
      dsimp only
      rw [ends_bind]
      intro answer _
      cases answer with
      | error message => exact fun created same => by cases same
      | ok value =>
          intro created _ name own
          rcases List.mem_cons.mp own with rfl | letter
          · exact ⟨_, value, List.mem_append_right _ (List.mem_singleton_self _), rfl⟩
          · split at letter
            · rename_i wanted
              obtain rfl := List.mem_singleton.mp letter
              exact (holds redrivePolicy rfl wanted).mono (List.subset_append_left _ _)
            · cases letter

def engine (registry : Registry η) (config : SqsConfiguration) :
    Engine confirms :=
  ⟨createQueue registry config, queues registry, createQueue_confirmed registry config⟩

end Sqs

/-! ## All instances -/

section Instances

variable {κ : Type} {ω : κ → Type} {confirms : ∀ call, ω call → String → Prop} {χ σ : Type}

/-- A broker answers the calls of all instances.  Its answers are true, and it deletes no queue. -/
structure Broker (confirms : ∀ call, ω call → String → Prop) (χ σ : Type) where
  serve : χ → ∀ call, Action σ (ω call)
  has : σ → String → Prop
  keeps : ∀ choice call state name, has state name →
    has (Action.exec (serve choice call) state).2 name
  honest : ∀ choice call state value, (Action.exec (serve choice call) state).1 = .ok value →
    ∀ name, confirms call value name → has (Action.exec (serve choice call) state).2 name

/-- Create the queues of all topics, at most ten at a time.  An error is logged. -/
def Engine.createQueues (engine : Engine confirms) (topics : List String) :
    Mapping ω (Except String Bool) :=
  .begin 10 ((topics.map engine.createQueue).map attempt)

/-- All instances begin to create the queues of their topics. -/
def begin (instances : List (Engine confirms × List String)) (state : σ) :
    Sharing ω (Except String Bool) σ where
  state := state
  mappings := instances.map fun (engine, topics) => engine.createQueues topics

/-- The instances and their broker. -/
def system (broker : Broker confirms χ σ) :
    System (Sharing ω (Except String Bool) σ) (Sharing.Event χ) :=
  Sharing.system broker.serve (Except String Bool)

variable {broker : Broker confirms χ σ} {instances : List (Engine confirms × List String)}
  {state : σ} {events : List (Sharing.Event χ)} {final : Sharing ω (Except String Bool) σ}

/-- In the beginning nothing has been answered. -/
theorem knowing_begin {fact : List (Entry ω) → Entry ω → σ → Prop} :
    (begin instances state).Knowing (fun _ => True) (Sharing.Facts fact) fun _ _ => True := by
  refine Sharing.knowing_fresh trivial (Sharing.facts_nil state) fun mapping member => ?_
  obtain ⟨⟨engine, topics⟩, -, rfl⟩ := List.mem_map.mp member
  exact ⟨_, _, rfl, fun program _ => asks_of_forall (fun _ _ => trivial) program _⟩

/-- The queues that an answer confirms exist. -/
def Broker.Holds (broker : Broker confirms χ σ) (entry : Entry ω) (state : σ) : Prop :=
  ∀ value, entry.2 = .ok value → ∀ name, confirms entry.1 value name → broker.has state name

theorem Broker.holds_told (broker : Broker confirms χ σ) (choice : χ) (call : κ) (state : σ) :
    broker.Holds ⟨call, (Action.exec (broker.serve choice call) state).1⟩
      (Action.exec (broker.serve choice call) state).2 :=
  fun value answered name confirmed =>
    broker.honest choice call state value answered name confirmed

theorem Broker.Holds.kept {entry : Entry ω} (holds : broker.Holds entry state) (choice : χ)
    (call : κ) : broker.Holds entry (Action.exec (broker.serve choice call) state).2 :=
  fun value answered name confirmed =>
    broker.keeps choice call state name (holds value answered name confirmed)

/-- What the instances have been told is true. -/
theorem holds_run (execution : (system broker).run events (begin instances state) = some final) :
    final.Knowing (fun _ => True) (Sharing.Facts fun _ => broker.Holds) fun _ _ => True :=
  Sharing.knowing_run (Sharing.truthful_of_facts (fun _ _ _ _ _ _ _ => trivial)
    (fun choice call state _ _ _ _ => broker.holds_told choice call state)
    fun choice call _ _ _ _ _ _ _ holds => holds.kept choice call) knowing_begin execution

/-- Each instance goes through a run of its own. -/
theorem mapping_run (execution : (system broker).run events (begin instances state) = some final)
    {position : Nat} {engine : Engine confirms} {topics : List String}
    {mapping : Mapping ω (Except String Bool)}
    (present : instances[position]? = some (engine, topics))
    (found : final.mappings[position]? = some mapping) :
    ∃ own, (Mapping.system ω (Except String Bool)).run own
      (.begin 10 ((topics.map engine.createQueue).map attempt)) = some mapping := by
  obtain ⟨initial, began, own, reaches⟩ := Sharing.continues_run execution position mapping found
  rw [begin, List.getElem?_map, present, Option.map_some, Option.some.injEq] at began
  subst began
  exact ⟨own, reaches⟩

/-- A creation that has settled has gone as it must, if its answers are as they must be. -/
theorem creation_ended {admits : ∀ call, Except String (ω call) → Prop} {engine : Engine confirms}
    {topics : List String} {mapping : Mapping ω (Except String Bool)}
    {own : List (Mapping.Event ω)} {index : Nat} {topic : String}
    {item : Item ω (Except String Bool)} {outcome : Except String Bool}
    (goes : (Mapping.system ω (Except String Bool)).run own
      (.begin 10 ((topics.map engine.createQueue).map attempt)) = some mapping)
    (listed : topics[index]? = some topic) (placed : mapping.items[index]? = some item)
    (settled : item.program = .settled (.ok outcome))
    (admitted : ∀ entry ∈ item.log, admits entry.1 entry.2)
    {post : List (Entry ω) → Except String Bool → Prop}
    (ends : (engine.createQueue topic).Ends admits [] post) : post item.log outcome := by
  have origin := Mapping.origin_at goes placed
  rw [List.getElem?_map, List.getElem?_map, listed, Option.map_some, Option.map_some,
    Option.some.injEq] at origin
  have attempted : item.origin.Ends admits [] fun after result =>
      ∀ outcome, result = .ok outcome → post after outcome := by
    rw [← origin, ends_attempt]
    refine ends.imp fun after outcome holds other same => ?_
    obtain rfl := Except.ok.inj same
    exact holds
  have answers := item.trace.ends admitted attempted
  rw [settled, ends_settled, List.nil_append] at answers
  exact answers outcome rfl

/-- An instance that has nothing left to do has tried all its topics. -/
theorem tried_all {engine : Engine confirms} {topics : List String}
    {mapping : Mapping ω (Except String Bool)} {own : List (Mapping.Event ω)}
    (goes : (Mapping.system ω (Except String Bool)).run own
      (.begin 10 ((topics.map engine.createQueue).map attempt)) = some mapping)
    (finished : mapping.Finished) {index : Nat} (bound : index < topics.length) :
    ∃ item outcome, mapping.items[index]? = some item ∧
      item.program = .settled (.ok outcome) := by
  have listed := List.getElem?_eq_getElem bound
  obtain ⟨item, placed⟩ := Mapping.exists_item ((List.map_map (l := topics)) ▸ goes) listed
  have member := List.mem_of_getElem? placed
  have done := Mapping.observed_done (fun _ => .error "") (by decide) goes finished item member
  obtain ⟨result, settled⟩ := Item.settled_iff.mp (Bool.and_eq_true_iff.mp done).2
  have fulfils := Mapping.contained_observed goes item member
  rw [settled] at fulfils
  obtain ⟨outcome, rfl⟩ := fulfils
  exact ⟨item, outcome, placed, settled⟩

/-- However the instances come in each other's way, no instance stops over an error, and once it
has nothing left to do it has tried all its topics.  After a creation that has succeeded all queues
of the topic exist. -/
theorem created_exist
    (execution : (system broker).run events (begin instances state) = some final)
    {position : Nat} {engine : Engine confirms} {topics : List String}
    {mapping : Mapping ω (Except String Bool)}
    (present : instances[position]? = some (engine, topics))
    (found : final.mappings[position]? = some mapping) :
    mapping.rejected = false ∧
      (mapping.Finished → ∀ index < topics.length, ∃ item outcome,
        mapping.items[index]? = some item ∧ item.program = .settled (.ok outcome)) ∧
      ∀ (index : Nat) topic (item : Item ω (Except String Bool)),
        topics[index]? = some topic → mapping.items[index]? = some item →
          ∀ created, item.program = .settled (.ok (.ok created)) →
            ∀ name ∈ engine.queues topic, broker.has final.state name := by
  obtain ⟨own, goes⟩ := mapping_run execution present found
  have knowing := holds_run execution
  refine ⟨(Mapping.contained_observed goes).not_rejected,
    fun finished index bound => tried_all goes finished bound,
    fun index topic item listed placed created settled name wanted => ?_⟩
  have confirmed := creation_ended goes listed placed settled (fun _ _ => trivial)
    (engine.confirmed topic)
  obtain ⟨call, value, told, true⟩ := confirmed created rfl name wanted
  obtain ⟨-, -, holds⟩ := (knowing.known mapping (List.mem_of_getElem? found) item
    (List.mem_of_getElem? placed)).mem told
  exact holds value rfl name true

/-! ### Brokers that refuse only what exists -/

variable {concerns : κ → String → Prop}

/-- A creation does not settle before each queue is confirmed or a call for it has failed. -/
def Engine.Persists (engine : Engine confirms) (concerns : κ → String → Prop) : Prop :=
  ∀ topic, (engine.createQueue topic).Ends (fun _ _ => True) [] fun entries _ =>
    ∀ name ∈ engine.queues topic, Confirmed confirms entries name ∨
      ∃ call message, (⟨call, .error message⟩ : Entry ω) ∈ entries ∧ concerns call name

/-- A call for a queue fails only if the queue exists. -/
def Broker.Yields (broker : Broker confirms χ σ) (concerns : κ → String → Prop) : Prop :=
  ∀ choice call state message, (Action.exec (broker.serve choice call) state).1 = .error message →
    ∀ name, concerns call name → broker.has state name

/-- What an answer of such a broker has told. -/
structure Broker.Tells (broker : Broker confirms χ σ) (concerns : κ → String → Prop)
    (entry : Entry ω) (state : σ) : Prop where
  holds : broker.Holds entry state
  failed : ∀ message, entry.2 = .error message → ∀ name, concerns entry.1 name →
    broker.has state name

theorem tells_run (yields : broker.Yields concerns)
    (execution : (system broker).run events (begin instances state) = some final) :
    final.Knowing (fun _ => True) (Sharing.Facts fun _ => broker.Tells concerns)
      fun _ _ => True := by
  refine Sharing.knowing_run (Sharing.truthful_of_facts (fun _ _ _ _ _ _ _ => trivial) ?_ ?_)
    knowing_begin execution
  · intro choice call state _ _ _ _
    exact
      { holds := broker.holds_told choice call state
        failed := fun message answered name concerned =>
          broker.keeps choice call state name
            (yields choice call state message answered name concerned) }
  · intro choice call state _ _ _ _ _ entry told
    exact
      { holds := told.holds.kept choice call
        failed := fun message answered name concerned =>
          broker.keeps choice call state name (told.failed message answered name concerned) }

/-- Once an instance has nothing left to do, the queues of all its topics exist. -/
theorem all_exist (yields : broker.Yields concerns)
    (execution : (system broker).run events (begin instances state) = some final)
    {position : Nat} {engine : Engine confirms} {topics : List String}
    {mapping : Mapping ω (Except String Bool)} (persists : engine.Persists concerns)
    (present : instances[position]? = some (engine, topics))
    (found : final.mappings[position]? = some mapping) (finished : mapping.Finished)
    {topic : String} (wanted : topic ∈ topics) :
    ∀ name ∈ engine.queues topic, broker.has final.state name := by
  obtain ⟨own, goes⟩ := mapping_run execution present found
  have knowing := tells_run yields execution
  obtain ⟨index, bound, rfl⟩ := List.mem_iff_getElem.mp wanted
  obtain ⟨item, outcome, placed, settled⟩ := tried_all goes finished bound
  have known := knowing.known mapping (List.mem_of_getElem? found) item
    (List.mem_of_getElem? placed)
  intro name own
  rcases creation_ended goes (List.getElem?_eq_getElem bound) placed settled
    (fun _ _ => trivial) (persists _) name own with
    ⟨call, value, told, true⟩ | ⟨call, message, told, concerned⟩
  · obtain ⟨-, -, tells⟩ := known.mem told
    exact tells.holds value rfl name true
  · obtain ⟨-, -, tells⟩ := known.mem told
    exact tells.failed message rfl name concerned

end Instances

namespace Redis

theorem engine_persists (config : Fields) : (engine config).Persists Concerns := by
  intro topic
  refine (createQueue_told config topic).imp fun entries outcome told name own => ?_
  rw [List.mem_singleton.mp own]
  rcases told with confirmed | ⟨-, call, message, failed, concerned⟩
  · exact .inl confirmed
  · exact .inr ⟨call, message, failed, concerned⟩

/-- However many instances find a queue missing at the same time and try to create it, once one of
them has finished the queues of all its topics exist, as long as the server lists its queues and
refuses to create only what exists. -/
theorem races_create_all {χ σ : Type} {broker : Broker confirms χ σ}
    (lists : ∀ choice state, ∃ queues,
      (Action.exec (broker.serve choice .listQueues) state).1 = .ok queues)
    (refuses : ∀ choice parameters state message,
      (Action.exec (broker.serve choice (.createQueue parameters)) state).1 = .error message →
        broker.has state parameters.qname)
    {instances : List (Fields × List String)} {state : σ} {events : List (Sharing.Event χ)}
    {final : Sharing Call.Answer (Except String Bool) σ}
    (execution : (system broker).run events (begin
      (instances.map fun (config, topics) => (engine config, topics)) state) = some final)
    {position : Nat} {config : Fields} {topics : List String}
    {mapping : Mapping Call.Answer (Except String Bool)}
    (present : instances[position]? = some (config, topics))
    (found : final.mappings[position]? = some mapping) (finished : mapping.Finished) :
    ∀ topic ∈ topics, broker.has final.state topic := by
  intro topic wanted
  have yields : broker.Yields Concerns := by
    intro choice call state message answered name concerned
    cases call with
    | listQueues =>
        obtain ⟨queues, listed⟩ := lists choice state
        rw [listed] at answered
        cases answered
    | createQueue parameters => exact concerned ▸ refuses choice parameters state message answered
  have placed : (instances.map fun (config, topics) => (engine config, topics))[position]? =
      some (engine config, topics) := by
    rw [List.getElem?_map, present, Option.map_some]
  exact all_exist yields execution (engine_persists config) placed found finished wanted topic
    (List.mem_singleton_self topic)

/-- What a server answers that knows the names of its queues. -/
def serving : ∀ call : Call, Action (List String) call.Answer
  | .listQueues => ExceptT.mk fun queues => (.ok queues, queues)
  | .createQueue parameters => ExceptT.mk fun queues =>
      if parameters.qname ∈ queues then (.error "Queue exists", queues)
      else (.ok (), parameters.qname :: queues)

theorem exec_serving_createQueue (parameters : QueueParameters) (queues : List String) :
    Action.exec (serving (.createQueue parameters)) queues =
      if parameters.qname ∈ queues then (.error "Queue exists", queues)
      else (.ok (), parameters.qname :: queues) := rfl

/-- The server as a broker. -/
def server : Broker confirms Unit (List String) where
  serve _ := serving
  has queues name := name ∈ queues
  keeps _ call queues name present := by
    cases call with
    | listQueues => exact present
    | createQueue parameters =>
        rw [exec_serving_createQueue]
        split
        · exact present
        · exact List.mem_cons_of_mem _ present
  honest _ call queues value answered name confirmed := by
    cases call with
    | listQueues =>
        obtain rfl := Except.ok.inj answered
        exact confirmed
    | createQueue parameters =>
        obtain rfl : name = parameters.qname := confirmed
        rw [exec_serving_createQueue]
        split
        · assumption
        · exact List.mem_cons_self

/-- Two instances with one topic. -/
def racing : List (Fields × List String) := [([], ["orders"]), ([], ["orders"])]

/-- Two instances find the queue of orders missing, and one of them is too late to create it. -/
def race : List (Sharing.Event Unit) :=
  [.answer 0 0 (), .answer 1 0 (), .answer 0 0 (), .answer 1 0 ()]

theorem race_creates_orders : ∃ final, (system server).run race (begin
    (racing.map fun (config, topics) => (engine config, topics)) []) = some final ∧
      server.has final.state "orders" := by
  have lists : ∀ (choice : Unit) (state : List String), ∃ queues,
      (Action.exec (server.serve choice .listQueues) state).1 = .ok queues :=
    fun _ state => ⟨state, rfl⟩
  have refuses : ∀ (choice : Unit) parameters (state : List String) message,
      (Action.exec (server.serve choice (.createQueue parameters)) state).1 = .error message →
        server.has state parameters.qname := by
    intro choice parameters state message answered
    change (Action.exec (serving (.createQueue parameters)) state).1 = _ at answered
    rw [exec_serving_createQueue] at answered
    split at answered
    · assumption
    · cases answered
  obtain ⟨final, mapping, execution, found, finished⟩ : ∃ final mapping,
      (system server).run race (begin (racing.map fun (config, topics) =>
        (engine config, topics)) []) = some final ∧
        final.mappings[1]? = some mapping ∧ mapping.Finished := by
    refine ⟨_, _, rfl, rfl, fun event => ?_⟩
    cases event with
    | start index => rcases index with _ | index <;> rfl
    | reply index environment => rcases index with _ | index <;> rfl
  have second : racing[1]? = some ([], ["orders"]) := rfl
  exact ⟨final, execution, races_create_all lists refuses execution second found finished "orders"
    (by simp)⟩

end Redis

namespace Sqs

variable {η : Type}

/-- However the instances come in each other's way, no instance stops over an error, and once it
has nothing left to do it has tried all its topics.  After a creation that has succeeded, the queue
of the topic exists, and the one for the messages that cannot be handled if the task wants it. -/
theorem setups_create_queues {χ σ : Type} {broker : Broker confirms χ σ}
    {instances : List (Registry η × SqsConfiguration × List String)} {state : σ}
    {events : List (Sharing.Event χ)} {final : Sharing Call.Answer (Except String Bool) σ}
    (execution : (system broker).run events (begin (instances.map fun (registry, config, topics) =>
      (engine registry config, topics)) state) = some final)
    {position : Nat} {registry : Registry η} {config : SqsConfiguration} {topics : List String}
    {mapping : Mapping Call.Answer (Except String Bool)}
    (present : instances[position]? = some (registry, config, topics))
    (found : final.mappings[position]? = some mapping) :
    mapping.rejected = false ∧
      (mapping.Finished → ∀ index < topics.length, ∃ item outcome,
        mapping.items[index]? = some item ∧ item.program = .settled (.ok outcome)) ∧
      ∀ (index : Nat) topic (item : Item Call.Answer (Except String Bool)),
        topics[index]? = some topic → mapping.items[index]? = some item →
          ∀ created, item.program = .settled (.ok (.ok created)) →
            ∀ name ∈ queues registry topic, broker.has final.state name := by
  have placed : (instances.map fun (registry, config, topics) =>
      (engine registry config, topics))[position]? = some (engine registry config, topics) := by
    rw [List.getElem?_map, present, Option.map_some]
  exact created_exist execution placed found

/-- What a service answers that keeps the names of its queues. -/
def keeping : ∀ call : Call, Action (List String) call.Answer
  | .getQueueUrl queueName => ExceptT.mk fun queues =>
      (if queueName ∈ queues then .ok (some ("/" ++ queueName)) else .error "NonExistentQueue",
        queues)
  | .createQueue input => ExceptT.mk fun queues =>
      (.ok (some ("/" ++ input.queueName)), input.queueName :: queues)
  | .getQueueAttributes queueUrl => ExceptT.mk fun queues => (.ok (some queueUrl), queues)

/-- The service as a broker. -/
def service : Broker confirms Unit (List String) where
  serve _ := keeping
  has queues name := name ∈ queues
  keeps _ call queues name present := by
    cases call with
    | getQueueUrl queueName => exact present
    | createQueue input => exact List.mem_cons_of_mem _ present
    | getQueueAttributes queueUrl => exact present
  honest _ call queues value answered name confirmed := by
    cases call with
    | getQueueUrl queueName =>
        obtain ⟨-, same⟩ := confirmed
        rw [same]
        by_cases present : queueName ∈ queues
        · exact present
        · change (if queueName ∈ queues then _ else _ : Except String (Option String)) = _
            at answered
          rw [if_neg present] at answered
          cases answered
    | createQueue input =>
        obtain rfl : name = input.queueName := confirmed
        exact List.mem_cons_self
    | getQueueAttributes queueUrl => exact confirmed.elim

/-- Two instances whose task wants a queue for the messages that cannot be handled. -/
def wanting : List (Registry (Callback Unit) × SqsConfiguration × List String) :=
  let registry := (QueueCreation.ordersRunner QueueCreation.orderedOptions).registry
  [(registry, QueueCreation.bothSet, ["orders"]), (registry, ⟨none, none⟩, ["orders"])]

/-- Both instances find the queues missing, and both create them. -/
def both : List (Sharing.Event Unit) :=
  [.answer 0 0 (), .answer 1 0 (), .answer 0 0 (), .answer 1 0 (), .answer 0 0 (), .answer 1 0 (),
    .answer 0 0 (), .answer 1 0 ()]

theorem both_create_queues : ∃ final mapping,
    (system service).run both (begin (wanting.map fun (registry, config, topics) =>
      (engine registry config, topics)) []) = some final ∧
    final.mappings[1]? = some mapping ∧ mapping.rejected = false ∧
      service.has final.state "orders.fifo" ∧ service.has final.state "orders_DLQ" := by
  obtain ⟨final, mapping, item, execution, found, placed, settled⟩ : ∃ final mapping item,
      (system service).run both (begin (wanting.map fun (registry, config, topics) =>
        (engine registry config, topics)) []) = some final ∧
      final.mappings[1]? = some mapping ∧ mapping.items[0]? = some item ∧
        item.program = .settled (.ok (.ok true)) := ⟨_, _, _, rfl, rfl, rfl, rfl⟩
  have second : wanting[1]? =
      some ((QueueCreation.ordersRunner QueueCreation.orderedOptions).registry, ⟨none, none⟩,
        ["orders"]) := rfl
  obtain ⟨unrejected, -, exist⟩ := setups_create_queues execution second found
  have queues := exist 0 "orders" item rfl placed true settled
  exact ⟨final, mapping, execution, found, unrejected, queues _ (by decide), queues _ (by decide)⟩

end Sqs

end QueueSetup

end Steveo
