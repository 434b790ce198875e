import Steveo.Messaging.Envelope

/-!
# SQS queues

The producer and the runner find or create the queue of a topic, and each derives its name and
whether it is first-in-first-out.  This file models both sides and says when they agree.
-/

namespace Steveo

open Steveo.Action

/-! ## The client -/

/-- Where a queue sends the messages that cannot be handled. -/
structure RedrivePolicy where
  deadLetterTargetArn : String
  maxReceiveCount : String

/-- The input of the client's call that creates a queue.  The redrive policy is written as the
object that is serialised. -/
structure CreateQueueCommandInput where
  queueName : String
  receiveMessageWaitTimeSeconds : Option String
  messageRetentionPeriod : Option String
  fifoQueue : Option String := none
  contentBasedDeduplication : Option String := none
  redrivePolicy : Option RedrivePolicy := none

/-- The calls of the SQS client on a service. -/
structure SqsClient (σ : Type) where
  /-- The address of a queue. -/
  getQueueUrl : String → Action σ (Option String)
  /-- The address of a new queue. -/
  createQueue : CreateQueueCommandInput → Action σ (Option String)
  /-- The resource name of the queue at an address. -/
  getQueueAttributes : String → Action σ (Option String)

/-- The part of the configuration that goes into new queues. -/
structure SqsConfiguration where
  receiveMessageWaitTimeSeconds : Option String
  messageRetentionPeriod : Option String

/-- A service together with the addresses that a client of it has stored. -/
structure SqsSession (σ : Type) where
  service : σ
  sqsUrls : Dictionary String String

/-- An address, unless it is empty. -/
def nonempty (url : Option String) : Option String := url.filter fun text => text ≠ ""

/-- The address in an answer; an error counts as no address. -/
def found : Except String (Option String) → Option String
  | .ok url => nonempty url
  | .error _ => none

/-- Assign to a property of the stored addresses; `__proto__` does not take a string. -/
def storeUrl (sqsUrls : Dictionary String String) (queueName url : String) :
    Dictionary String String :=
  if queueName = "__proto__" then sqsUrls else sqsUrls.set queueName url

variable {σ η α : Type}

namespace SqsSession

/-- Call the service. -/
def call (action : Action σ α) : Action (SqsSession σ) α := ExceptT.mk fun session =>
  let answer := exec action session.service
  (answer.1, { session with service := answer.2 })

/-- Store the address of a queue. -/
def store (queueName url : String) : Action (SqsSession σ) Unit :=
  modify fun session => { session with sqsUrls := storeUrl session.sqsUrls queueName url }

end SqsSession

/-- The option that makes the queue of a task first-in-first-out. -/
def Registry.fifo (registry : Registry η) (topic : String) : Bool :=
  ((registry.getTask topic).bind fun element => element.options.fifo).getD false

/-- The texts of the errors in which producer and runner differ. -/
structure QueueTexts where
  label : String
  unnamed : String

/-- A call whose error is reported under a text. -/
def reported (text : String) (action : Action σ α) : Action σ α := do
  match ← attempt action with
  | .ok value => pure value
  | .error message => throw (text ++ message)

/-- The policy for the messages of a queue that cannot be handled, if the task registered under the
name of the queue wants one. -/
def getDeadLetterQueuePolicy (texts : QueueTexts) (registry : Registry η)
    (config : SqsConfiguration) (client : SqsClient σ) (queueName : String) :
    Action σ (Option RedrivePolicy) :=
  match registry.getTask queueName with
  | none => pure none
  | some task =>
      if task.options.deadLetterQueue.getD false then do
        let dlQueueName := queueName ++ "_DLQ"
        let dlQueueUrl ← match found (← attempt (client.getQueueUrl dlQueueName)) with
          | some url => pure url
          | none => do
              let created ← reported
                ("Error: " ++ texts.label ++ "Failed to call SQS createQueue: ")
                (client.createQueue
                  { queueName := dlQueueName
                    receiveMessageWaitTimeSeconds :=
                      some (config.receiveMessageWaitTimeSeconds.getD "20")
                    messageRetentionPeriod :=
                      some (config.messageRetentionPeriod.getD "604800") })
              match nonempty created with
              | some url => pure url
              | none => throw ("Error: " ++ texts.unnamed)
        let dlQueueArn ← reported
          ("Error: " ++ texts.label ++ "Failed to call SQS getQueueAttributes: ")
          (client.getQueueAttributes dlQueueUrl)
        match nonempty dlQueueArn with
        | some arn =>
            pure (some
              { deadLetterTargetArn := arn
                maxReceiveCount := toString (task.options.maxReceiveCount.getD 5) })
        | none => throw ("Error: " ++ texts.label ++ "Failed to retrieve the DLQ ARN")
      else
        pure none

/-! ## The producer -/

namespace SqsProducer

variable (registry : Registry η) (config : SqsConfiguration) (client : SqsClient σ)

def texts : QueueTexts where
  label := "SQS: "
  unnamed := "SQS: createQueue response does not contain a queue name"

/-- Whether the producer takes the queue of a topic to be first-in-first-out. -/
def fifo (topic : String) : Bool := topic.endsWith ".fifo" || registry.fifo topic

/-- The name under which the producer looks for the queue of a topic. -/
def queueName (topic : String) : String :=
  if fifo registry topic then
    if topic.endsWith ".fifo" then topic else topic ++ ".fifo"
  else topic

/-- Find or create the queue of a topic, and store its address. -/
def initializeTopic (topic : String) : Action (SqsSession σ) String := do
  ensure (topic ≠ "") "Error: Topic cannot be empty"
  let fifoAttribute := if fifo registry topic then some "true" else none
  let queueName := queueName registry topic
  match found (← attempt (SqsSession.call (client.getQueueUrl queueName))) with
  | some queueUrl => do
      SqsSession.store queueName queueUrl
      pure queueUrl
  | none => do
      let redrivePolicy ← SqsSession.call
        (getDeadLetterQueuePolicy texts registry config client queueName)
      let created ← SqsSession.call (reported "Error: Failed to call SQS createQueue: "
        (client.createQueue
          { queueName
            receiveMessageWaitTimeSeconds :=
              some (config.receiveMessageWaitTimeSeconds.getD "20")
            messageRetentionPeriod := some (config.messageRetentionPeriod.getD "604800")
            fifoQueue := fifoAttribute
            contentBasedDeduplication := fifoAttribute
            redrivePolicy }))
      match nonempty created with
      | some queueUrl => do
          SqsSession.store queueName queueUrl
          pure queueUrl
      | none => throw "Error: SQS createQueue response does not contain a queue name"

end SqsProducer

/-! ## The runner -/

namespace SqsRunner

variable {τ : Type} (runner : Runner τ) (config : SqsConfiguration) (client : SqsClient σ)

def texts : QueueTexts where
  label := ""
  unnamed := "SQS createQueue response does not contain a queue name"

/-- The name under which the runner creates the queue of a topic. -/
def queueName (topic : String) : String :=
  if runner.registry.fifo topic then topic ++ ".fifo" else topic

/-- What is stored as the address of the queue of a topic, which is looked for if nothing is. -/
def getQueueUrl (topic : String) : Action (SqsSession σ) (Option (Property String)) := do
  let sqsTopic := getTopic runner topic
  let session ← get
  if !Property.truthy (session.sqsUrls.property sqsTopic) then
    match found (← attempt (SqsSession.call (client.getQueueUrl sqsTopic))) with
    | some url => SqsSession.store sqsTopic url
    | none => pure ()
  let session ← get
  pure (session.sqsUrls.property sqsTopic)

/-- Create the queue of a topic. -/
def createQueue (topic : String) : Action σ Bool := do
  let fifoAttribute := if runner.registry.fifo topic then some "true" else none
  let redrivePolicy ← getDeadLetterQueuePolicy texts runner.registry config client topic
  let _ ← client.createQueue
    { queueName := queueName runner topic
      receiveMessageWaitTimeSeconds := config.receiveMessageWaitTimeSeconds
      messageRetentionPeriod := config.messageRetentionPeriod
      fifoQueue := fifoAttribute
      contentBasedDeduplication := fifoAttribute
      redrivePolicy }
  pure true

end SqsRunner

/-! ## What both sides do -/

section Specifications

@[simp] theorem SqsSession.exec_call (action : Action σ α) (session : SqsSession σ) :
    exec (SqsSession.call action) session =
      ((exec action session.service).1,
        { session with service := (exec action session.service).2 }) := rfl

@[simp] theorem SqsSession.exec_store (queueName url : String) (session : SqsSession σ) :
    exec (SqsSession.store queueName url) session =
      (.ok (), { session with sqsUrls := storeUrl session.sqsUrls queueName url }) := rfl

theorem get_storeUrl {sqsUrls : Dictionary String String} {queueName : String} (url : String)
    (ordinary : queueName ≠ "__proto__") :
    (storeUrl sqsUrls queueName url).get queueName = some url := by
  simp [storeUrl, ordinary]

/-- Calls leave the stored addresses as they are. -/
theorem SqsSession.sqsUrls_of_call {action : Action σ α} {outcome : Except String α}
    {before after : SqsSession σ}
    (called : exec (SqsSession.call action) before = (outcome, after)) :
    after.sqsUrls = before.sqsUrls := by
  rw [exec_call] at called
  exact (congrArg (fun result => result.2.sqsUrls) called).symm

theorem SqsSession.stored_of_exec {queueName url returned : String} {before after : SqsSession σ}
    (stored : exec (do SqsSession.store queueName url; pure url) before = (.ok returned, after)) :
    after.sqsUrls = storeUrl before.sqsUrls queueName returned := by
  rw [exec_bind_ok (SqsSession.exec_store _ _ _), exec_pure, Prod.mk.injEq] at stored
  obtain ⟨same, rfl⟩ := stored
  rw [Except.ok.inj same]

theorem get_storeUrl_empty {queueName key url : String} :
    (storeUrl .empty queueName url).get key = some url ↔
      key = queueName ∧ queueName ≠ "__proto__" := by
  by_cases inherited : queueName = "__proto__"
  · simp [storeUrl, inherited]
  · simp [storeUrl, inherited]

variable {registry : Registry η} {config : SqsConfiguration} {client : SqsClient σ}

/-- A producer that has found or created the queue of a topic has stored its address. -/
theorem SqsProducer.initializeTopic_stores {topic url : String} {before after : SqsSession σ}
    (returned : exec (initializeTopic registry config client topic) before = (.ok url, after)) :
    topic ≠ "" ∧
      after.sqsUrls = storeUrl before.sqsUrls (queueName registry topic) url := by
  have filled : topic ≠ "" := by
    rintro rfl
    cases congrArg Prod.fst returned
  refine ⟨filled, ?_⟩
  rw [initializeTopic, decide_eq_true filled, exec_bind_ok (exec_ensure_true _ _),
    exec_bind_ok (exec_attempt _ _)] at returned
  split at returned
  · rw [SqsSession.stored_of_exec returned]
    rfl
  · obtain ⟨redrivePolicy, middle, policy, created⟩ := exec_bind_eq_ok returned
    obtain ⟨answer, last, called, answered⟩ := exec_bind_eq_ok created
    split at answered
    · rw [SqsSession.stored_of_exec answered, SqsSession.sqsUrls_of_call called,
        SqsSession.sqsUrls_of_call policy]
      rfl
    · cases congrArg Prod.fst answered

/-- A client whose service knows the address of every queue. -/
def knowing (url : String) : SqsClient Unit where
  getQueueUrl := fun _ => pure (some url)
  createQueue := fun _ => pure (some url)
  getQueueAttributes := fun _ => pure none

theorem SqsProducer.exec_initializeTopic_knowing {topic url : String} (filled : topic ≠ "")
    (given : url ≠ "") (session : SqsSession Unit) :
    exec (initializeTopic registry config (knowing url) topic) session =
      (.ok url, { session with
        sqsUrls := storeUrl session.sqsUrls (queueName registry topic) url }) := by
  have known : found (.ok (some url)) = some url := by simp [found, nonempty, given]
  rw [initializeTopic, decide_eq_true filled, exec_bind_ok (exec_ensure_true _ _),
    exec_bind_ok (exec_attempt _ _)]
  change exec (match found (.ok (some url)) with | some _ => _ | none => _) session = _
  rw [known]
  rfl

end Specifications

/-! ## Agreement -/

section Agreement

variable {τ : Type}

/-- A producer that knows the address of the queue of a topic sends there, with the deduplication
identifier that is given if the queue is first-in-first-out; and a runner with a task for the topic
uses the same queue. -/
structure SqsAgreed (runner : Runner τ) (topic : String) (options : Fields)
    (sqsUrls : Dictionary String String) (url : String) : Prop where
  sent : ∀ print origin payload, ∃ data,
    SqsProducer.getPayload runner.registry sqsUrls print origin payload topic options = .ok data ∧
      data.queueUrl = some (.own url) ∧
      (SqsProducer.fifo runner.registry topic = true →
        ∀ id, options.get "deDuplicationId" = some id → data.messageDeduplicationId = some id)
  received : (runner.registry.getTask topic).isSome = true →
    SqsRunner.getTopic runner topic = SqsProducer.queueName runner.registry topic ∧
      SqsRunner.queueName runner topic = SqsProducer.queueName runner.registry topic

/-- Whatever the service and the addresses stored before, producer and runner agree on the queue of
a topic once the producer has found or created it. -/
def SqsAgrees (runner : Runner τ) (topic : String) (options : Fields) : Prop :=
  ∀ (σ : Type) (config : SqsConfiguration) (client : SqsClient σ) (before after : SqsSession σ)
    (url : String),
    exec (SqsProducer.initializeTopic runner.registry config client topic) before =
        (.ok url, after) →
      SqsAgreed runner topic options after.sqsUrls url

/-- The topic is first-in-first-out by its name or by an option, not by both; a deduplication
identifier is given only by an option's leave and is not empty; and the options and the name of the
topic can be printed and stored. -/
structure SqsClear (runner : Runner τ) (topic : String) (options : Fields) : Prop where
  stamped : MessageEngine.Stamped options
  storable : topic = "__proto__" → runner.registry.fifo topic = true
  once : topic.endsWith ".fifo" = true → runner.registry.fifo topic = false
  unnamed : topic.endsWith ".fifo" = true → options.get "deDuplicationId" = none
  identified : runner.registry.fifo topic = true →
    ∀ id, options.get "deDuplicationId" = some id → truthy (some id) = true

/-- What the producer sends is addressed to the queue stored under the name that the task's option
yields, with the deduplication identifier if the option is set. -/
theorem SqsProducer.getPayload_ok {registry : Registry η} {sqsUrls : Dictionary String String}
    {print : Json → String} {origin : Origin} {payload options : Fields} {topic : String}
    {data : SendMessageCommandInput}
    (sent : getPayload registry sqsUrls print origin payload topic options = .ok data) :
    data.queueUrl = sqsUrls.property (if registry.fifo topic then topic ++ ".fifo" else topic) ∧
      data.messageDeduplicationId =
        if registry.fifo topic then orUndefined (options.get "deDuplicationId") else none := by
  rw [getPayload] at sent
  cases printed : callToString print
      (((createMessageMetadata origin payload).spread options).get "timestamp") with
  | error message =>
      rw [printed] at sent
      cases sent
  | ok timestamp =>
      rw [printed] at sent
      obtain rfl := Except.ok.inj sent
      exact ⟨rfl, rfl⟩

theorem get_createMessageMetadata_timestamp (origin : Origin) (payload options : Fields) :
    ((createMessageMetadata origin payload).spread options).get "timestamp" =
      some ((options.get "timestamp").getD (.num origin.timestamp)) := by
  have own : (createMessageMetadata origin payload).get "timestamp" =
      some (.num origin.timestamp) := by
    simp [createMessageMetadata, Fields.get_spread, Fields.get_cons]
  rw [Fields.get_spread, own]
  cases options.get "timestamp" <;> rfl

/-- The producer can send a message exactly if its timestamp can be printed. -/
theorem SqsProducer.getPayload_isOk_iff {registry : Registry η}
    {sqsUrls : Dictionary String String} {topic : String} {options : Fields} :
    (∀ print origin payload, ∃ data,
      getPayload registry sqsUrls print origin payload topic options = .ok data) ↔
      MessageEngine.Stamped options := by
  have returns (print : Json → String) (origin : Origin) (payload : Fields) :
      (∃ data, getPayload registry sqsUrls print origin payload topic options = .ok data) ↔
        (options.get "timestamp").getD (.num origin.timestamp) ≠ .null ∧
          ((options.get "timestamp").getD (.num origin.timestamp)).printable = true := by
    rw [← callToString_iff print, ← get_createMessageMetadata_timestamp origin payload options,
      getPayload]
    cases callToString print
      (((createMessageMetadata origin payload).spread options).get "timestamp") with
    | error message =>
        constructor
        · rintro ⟨_, returned⟩
          cases returned
        · rintro ⟨_, same⟩
          cases same
    | ok timestamp => exact ⟨fun _ => ⟨timestamp, rfl⟩, fun _ => ⟨_, rfl⟩⟩
  simp only [returns]
  constructor
  · intro printed timestamp routed
    have given := printed (fun _ => "") ⟨"", 0, (0, 0), 0, fun _ => ""⟩ []
    rwa [routed] at given
  · intro stamped print origin payload
    cases routed : options.get "timestamp" with
    | none => exact ⟨by simp, rfl⟩
    | some timestamp => exact stamped timestamp routed

theorem append_fifo_ne (topic other : String) (unlike : other.toList.getLast? ≠ some 'o') :
    topic ++ ".fifo" ≠ other := by
  rintro rfl
  simp at unlike

/-- A topic that is first-in-first-out at most once has one queue name. -/
theorem SqsProducer.queueName_eq {registry : Registry η} {topic : String}
    (once : topic.endsWith ".fifo" = true → registry.fifo topic = false) :
    queueName registry topic = if registry.fifo topic then topic ++ ".fifo" else topic := by
  rw [queueName, fifo]
  cases suffix : topic.endsWith ".fifo" with
  | true => rw [once suffix]; rfl
  | false => cases registry.fifo topic <;> rfl

/-- The addresses are stored under a name that takes a value. -/
theorem SqsClear.queueName_ne {runner : Runner τ} {topic : String} {options : Fields}
    (clear : SqsClear runner topic options) :
    SqsProducer.queueName runner.registry topic ≠ "__proto__" := by
  rw [SqsProducer.queueName_eq clear.once]
  split
  · exact append_fifo_ne topic "__proto__" (by decide)
  · rename_i standard
    exact fun same => standard (clear.storable same)

/-- Under these conditions the address that is stored last is the one that messages are sent to. -/
theorem SqsClear.agreed {runner : Runner τ} {topic url : String} {options : Fields}
    {sqsUrls : Dictionary String String} (clear : SqsClear runner topic options)
    (stored : sqsUrls.get (SqsProducer.queueName runner.registry topic) = some url) :
    SqsAgreed runner topic options sqsUrls url := by
  have name := SqsProducer.queueName_eq clear.once
  refine ⟨fun print origin payload => ?_, fun _ => ⟨name.symm, name.symm⟩⟩
  obtain ⟨data, produced⟩ :=
    SqsProducer.getPayload_isOk_iff.mpr clear.stamped print origin payload
  obtain ⟨queueUrl, identifier⟩ := SqsProducer.getPayload_ok produced
  refine ⟨data, produced, ?_, fun treated id given => ?_⟩
  · rw [queueUrl, ← name, Dictionary.property_eq_own]
    exact stored
  · rw [identifier, given]
    cases option : runner.registry.fifo topic with
    | true => simp [SqsProducer.orUndefined, clear.identified option id given]
    | false =>
        rw [SqsProducer.fifo, option, Bool.or_false] at treated
        rw [clear.unnamed treated] at given
        cases given

/-- Producer and runner agree on the queue of a topic exactly under these conditions. -/
theorem sqsAgrees_iff (runner : Runner τ) (topic : String) (options : Fields) :
    SqsAgrees runner topic options ↔ topic = "" ∨ SqsClear runner topic options := by
  constructor
  · intro agrees
    by_cases filled : topic = ""
    · exact Or.inl filled
    · refine Or.inr ?_
      obtain ⟨sent, -⟩ := agrees Unit ⟨none, none⟩ (knowing "url") ⟨(), .empty⟩ _ "url"
        (SqsProducer.exec_initializeTopic_knowing filled (by decide) _)
      have stamped := SqsProducer.getPayload_isOk_iff.mp fun print origin payload =>
        (sent print origin payload).imp fun _ => And.left
      obtain ⟨data, produced, addressed, deduplicated⟩ :=
        sent (fun _ => "") ⟨"", 0, (0, 0), 0, fun _ => ""⟩ []
      obtain ⟨queueUrl, identifier⟩ := SqsProducer.getPayload_ok produced
      rw [queueUrl, Dictionary.property_eq_own, get_storeUrl_empty] at addressed
      obtain ⟨same, ordinary⟩ := addressed
      have once (suffix : topic.endsWith ".fifo" = true) :
          runner.registry.fifo topic = false := by
        by_contra option
        rw [Bool.not_eq_false] at option
        rw [SqsProducer.queueName, if_pos option, SqsProducer.fifo, suffix, Bool.true_or,
          if_pos rfl, if_pos rfl] at same
        simp at same
      refine ⟨stamped, fun inherited => ?_, once, fun suffix => ?_, fun option id given => ?_⟩
      · by_contra standard
        rw [if_neg standard] at same
        exact ordinary (same ▸ inherited)
      · have treated : SqsProducer.fifo runner.registry topic = true := by
          rw [SqsProducer.fifo, suffix, Bool.true_or]
        rw [once suffix] at identifier
        rw [identifier] at deduplicated
        cases given : options.get "deDuplicationId" with
        | none => rfl
        | some id => cases deduplicated treated id given
      · have treated : SqsProducer.fifo runner.registry topic = true := by
          rw [SqsProducer.fifo, option, Bool.or_true]
        have kept := deduplicated treated id given
        rw [identifier, if_pos option, given, SqsProducer.orUndefined] at kept
        by_contra falsy
        rw [if_neg falsy] at kept
        cases kept
  · rintro (rfl | clear) σ config client before after url returned
    · exact absurd rfl (SqsProducer.initializeTopic_stores returned).1
    · obtain ⟨-, stored⟩ := SqsProducer.initializeTopic_stores returned
      exact clear.agreed (by rw [stored, get_storeUrl url clear.queueName_ne])

end Agreement

/-! ## A topic that is first-in-first-out twice -/

/-- A task whose topic has the suffix and whose queue has the option. -/
def ordersTask : RegistryElem (Callback Unit) where
  name := "orders"
  topic := "orders.fifo"
  subscribe := fun _ _ => pure ()
  options := { fifo := some true }

/-- The producer stores the address under the name of the topic; the runner, and the producer when
it sends, look under the name with another suffix. -/
theorem orders_disagree :
    ¬ SqsAgrees (Runner.serving (Registry.empty.addNewTask ordersTask)) "orders.fifo" [] := by
  intro agrees
  have agreed := agrees Unit ⟨none, none⟩ (knowing "url") ⟨(), .empty⟩ _ "url"
    (SqsProducer.exec_initializeTopic_knowing (by decide) (by decide) _)
  have suffix : "orders.fifo".endsWith ".fifo" = true := by
    rw [← String.endsWith_toSlice, String.Slice.endsWith_string_iff, String.copy_toSlice]
    decide
  have same := (agreed.received rfl).1
  rw [SqsProducer.queueName, SqsProducer.fifo, suffix, Bool.true_or, if_pos rfl, if_pos rfl] at same
  exact absurd same (by decide)

end Steveo
