import Steveo.Messaging.Queues

/-!
# Creating the queue of a task from both sides

The producer and the runner both create a queue that does not exist.  Each looks up whether the task
wants a queue for messages that cannot be handled: the runner under the topic of the task, the
producer under the name of the queue.  This file says when their requests are the same.
-/

namespace Steveo

open Steveo.Action

variable {σ η : Type}

/-- The option that makes a queue for the messages of a task that cannot be handled. -/
def Registry.deadLettered (registry : Registry η) (topic : String) : Bool :=
  ((registry.getTask topic).bind fun element => element.options.deadLetterQueue).getD false

namespace QueueCreation

/-! ## Requests -/

/-- A service together with the requests to create a queue that it has received. -/
abbrev Recorded (σ : Type) : Type := σ × List CreateQueueCommandInput

/-- Call the service. -/
def onService {α : Type} (action : Action σ α) : Action (Recorded σ) α := ExceptT.mk fun recorded =>
  let answer := exec action recorded.1
  (answer.1, (answer.2, recorded.2))

/-- The client of a service that records what it is asked to create. -/
def recording (client : SqsClient σ) : SqsClient (Recorded σ) where
  getQueueUrl queueName := onService (client.getQueueUrl queueName)
  createQueue input := do
    modify fun recorded => (recorded.1, recorded.2 ++ [input])
    onService (client.createQueue input)
  getQueueAttributes url := onService (client.getQueueAttributes url)

/-- The requests to create the queue of a name. -/
def requestsFor (queueName : String) (recorded : Recorded σ) : List CreateQueueCommandInput :=
  recorded.2.filter fun input => input.queueName = queueName

/-- Asking for the address of a queue changes nothing. -/
def AsksOnly (client : SqsClient σ) : Prop :=
  ∀ queueName service, (exec (client.getQueueUrl queueName) service).2 = service

section

variable {τ : Type} (runner : Runner τ) (config : SqsConfiguration) (client : SqsClient σ)
  (topic : String)

/-- What the producer leaves behind when it prepares a topic. -/
def produced (service : σ) (sqsUrls : Dictionary String String) : Recorded σ :=
  (exec (SqsProducer.initializeTopic runner.registry config (recording client) topic)
    ⟨(service, []), sqsUrls⟩).2.service

/-- The outcome of the runner's creation of the queue, and what it leaves behind. -/
def consumed (service : σ) : Except String Bool × Recorded σ :=
  exec (SqsRunner.createQueue runner config (recording client) topic) (service, [])

/-- Where the queue of a topic does not exist, both sides ask for the same queue, with a policy for
the messages that cannot be handled exactly if the task wants one; and a creation that succeeds has
been asked for. -/
def SameCreation : Prop :=
  ∀ (σ : Type) (client : SqsClient σ), AsksOnly client → ∀ (service : σ) sqsUrls,
    found (exec (client.getQueueUrl (SqsRunner.queueName runner topic)) service).1 = none →
    requestsFor (SqsRunner.queueName runner topic)
        (produced runner config client topic service sqsUrls) =
      requestsFor (SqsRunner.queueName runner topic)
        (consumed runner config client topic service).2 ∧
    (∀ input ∈ requestsFor (SqsRunner.queueName runner topic)
        (consumed runner config client topic service).2,
      input.redrivePolicy.isSome = runner.registry.deadLettered topic) ∧
    ((consumed runner config client topic service).1 = .ok true →
      requestsFor (SqsRunner.queueName runner topic)
        (consumed runner config client topic service).2 ≠ [])

end

/-! ## The creation of a queue -/

/-- The policy of a dead-letter queue and the request that follows. -/
def create (texts : QueueTexts) (registry : Registry η) (config : SqsConfiguration)
    (client : SqsClient σ) (policyName : String)
    (input : Option RedrivePolicy → CreateQueueCommandInput) : Action σ (Option String) := do
  let redrivePolicy ← getDeadLetterQueuePolicy texts registry config client policyName
  client.createQueue (input redrivePolicy)

section

variable {registry : Registry η} {config : SqsConfiguration} {client : SqsClient σ}

theorem reported_alike {α : Type} (text : String) (action : Action σ α) :
    Alike (reported text action) action := by
  intro state
  rw [reported, exec_bind_ok (exec_attempt action state)]
  rcases exec action state with ⟨outcome, after⟩
  cases outcome with
  | ok value => exact ⟨rfl, rfl⟩
  | error message => exact ⟨rfl, rfl⟩

/-- The policy that names the queue at an address. -/
def policyAt (texts : QueueTexts) (client : SqsClient σ) (options : TaskOptions)
    (dlQueueUrl : String) : Action σ (Option RedrivePolicy) := do
  let dlQueueArn ← reported
    ("Error: " ++ texts.label ++ "Failed to call SQS getQueueAttributes: ")
    (client.getQueueAttributes dlQueueUrl)
  match nonempty dlQueueArn with
  | some arn =>
      pure (some
        { deadLetterTargetArn := arn
          maxReceiveCount := toString (options.maxReceiveCount.getD 5) })
  | none => throw ("Error: " ++ texts.label ++ "Failed to retrieve the DLQ ARN")

/-- The request to create the queue for the messages of a queue that cannot be handled. -/
def deadLetterInput (config : SqsConfiguration) (queueName : String) : CreateQueueCommandInput where
  queueName := queueName ++ "_DLQ"
  receiveMessageWaitTimeSeconds := some (config.receiveMessageWaitTimeSeconds.getD "20")
  messageRetentionPeriod := some (config.messageRetentionPeriod.getD "604800")

/-- The policy of a task that wants one: its queue is looked for, and created if it is not found. -/
def wantedPolicy (texts : QueueTexts) (config : SqsConfiguration) (client : SqsClient σ)
    (options : TaskOptions) (queueName : String) : Action σ (Option RedrivePolicy) := do
  match found (← attempt (client.getQueueUrl (queueName ++ "_DLQ"))) with
  | some url => policyAt texts client options url
  | none => do
      let created ← reported ("Error: " ++ texts.label ++ "Failed to call SQS createQueue: ")
        (client.createQueue (deadLetterInput config queueName))
      match nonempty created with
      | some url => policyAt texts client options url
      | none => throw ("Error: " ++ texts.unnamed)

/-- Whether the task under a name wants a policy decides whether one is looked for. -/
theorem policy_cases (registry : Registry η) (queueName : String) :
    (registry.deadLettered queueName = false ∧ ∀ (σ : Type) texts config (client : SqsClient σ),
      getDeadLetterQueuePolicy texts registry config client queueName = pure none) ∨
    (registry.deadLettered queueName = true ∧
      ∃ options, ∀ (σ : Type) texts config (client : SqsClient σ),
        getDeadLetterQueuePolicy texts registry config client queueName =
          wantedPolicy texts config client options queueName) := by
  unfold getDeadLetterQueuePolicy Registry.deadLettered
  cases registry.getTask queueName with
  | none => exact Or.inl ⟨rfl, fun _ _ _ _ => rfl⟩
  | some task =>
      dsimp only [Option.bind_some]
      cases task.options.deadLetterQueue.getD false with
      | false => exact Or.inl ⟨rfl, fun _ _ _ _ => rfl⟩
      | true =>
          refine Or.inr ⟨rfl, task.options, fun σ texts config client => ?_⟩
          rw [if_pos rfl, wantedPolicy]
          refine congrArg _ (funext fun answer => ?_)
          cases found answer with
          | some url => rfl
          | none =>
              change (_ >>= _) = (_ >>= _)
              refine congrArg _ (funext fun created => ?_)
              cases nonempty created <;> rfl

/-- The policy is found in the same way on both sides. -/
theorem policy_alike (texts texts' : QueueTexts) (queueName : String) :
    Alike (getDeadLetterQueuePolicy texts registry config client queueName)
      (getDeadLetterQueuePolicy texts' registry config client queueName) := by
  have at_url (options : TaskOptions) (url : String) :
      Alike (policyAt texts client options url) (policyAt texts' client options url) := by
    refine Alike.bind ((reported_alike _ _).trans (reported_alike _ _).symm) fun arn => ?_
    cases nonempty arn with
    | some arn => exact Alike.refl _
    | none => exact Alike.throw _ _
  obtain ⟨-, unwanted⟩ | ⟨-, options, wanted⟩ := policy_cases registry queueName
  · rw [unwanted, unwanted]
    exact Alike.refl _
  · rw [wanted, wanted]
    refine Alike.bind (Alike.refl _) fun answer => ?_
    cases found answer with
    | some url => exact at_url options url
    | none =>
        refine Alike.bind ((reported_alike _ _).trans (reported_alike _ _).symm) fun created => ?_
        cases nonempty created with
        | some url => exact at_url options url
        | none => exact Alike.throw _ _

/-! ## The requests of a creation -/

/-- Only the queue of the given name is asked for. -/
def AsksOnlyFor (queueName : String) (before after : Recorded σ) : Prop :=
  ∃ requests, after.2 = before.2 ++ requests ∧ ∀ input ∈ requests, input.queueName = queueName

theorem effects_asksOnlyFor (queueName : String) :
    EffectRelation (AsksOnlyFor queueName : Recorded σ → Recorded σ → Prop) where
  refl recorded := ⟨[], (List.append_nil _).symm, fun _ member => absurd member List.not_mem_nil⟩
  trans := by
    rintro before middle after ⟨first, begun, named⟩ ⟨second, ended, named'⟩
    refine ⟨first ++ second, by rw [ended, begun, List.append_assoc], fun input member => ?_⟩
    exact (List.mem_append.mp member).elim (named input) (named' input)

theorem preserves_onService {α : Type} (queueName : String) (action : Action σ α) :
    Preserves (AsksOnlyFor queueName) (onService action) :=
  fun recorded => (effects_asksOnlyFor queueName).refl recorded

theorem preserves_reported {α : Type} {relation : σ → σ → Prop} (text : String)
    {action : Action σ α} (kept : Preserves relation action) :
    Preserves relation (reported text action) := by
  intro state
  rw [(reported_alike text action state).2]
  exact kept state

/-- Looking for a policy asks for no queue but the one that the policy is to name. -/
theorem preserves_policy (registry : Registry η) (config : SqsConfiguration)
    (client : SqsClient σ) (texts : QueueTexts) (queueName : String) :
    Preserves (AsksOnlyFor (queueName ++ "_DLQ"))
      (getDeadLetterQueuePolicy texts registry config (recording client) queueName) := by
  have effects := effects_asksOnlyFor (σ := σ) (queueName ++ "_DLQ")
  have at_url (options : TaskOptions) (url : String) :
      Preserves (AsksOnlyFor (queueName ++ "_DLQ"))
        (policyAt texts (recording client) options url) := by
    refine effects.bind (preserves_reported _ (preserves_onService _ _)) fun arn => ?_
    cases nonempty arn with
    | some arn => exact effects.pure _
    | none => exact effects.throw _
  obtain ⟨-, unwanted⟩ | ⟨-, options, wanted⟩ := policy_cases registry queueName
  · rw [unwanted]
    exact effects.pure _
  · rw [wanted]
    refine effects.bind (preserves_onService _ _) fun answer => ?_
    cases found answer with
    | some url => exact at_url options url
    | none =>
        refine effects.bind (preserves_reported _ (effects.bind ?_ fun _ =>
          preserves_onService _ _)) fun created => ?_
        · exact fun recorded => ⟨[deadLetterInput config queueName], rfl,
            fun input member => by rw [List.mem_singleton.mp member]; rfl⟩
        · cases nonempty created with
          | some url => exact at_url options url
          | none => exact effects.throw _

/-- A policy that is returned is there exactly if the task wants one. -/
theorem isSome_policy {texts : QueueTexts} {queueName : String} {state after : σ}
    {policy : Option RedrivePolicy}
    (returned : exec (getDeadLetterQueuePolicy texts registry config client queueName) state =
      (.ok policy, after)) :
    policy.isSome = registry.deadLettered queueName := by
  have at_url {options : TaskOptions} {url : String} {state : σ}
      (returned : exec (policyAt texts client options url) state = (.ok policy, after)) :
      policy.isSome = true := by
    obtain ⟨arn, middle, -, rest⟩ := exec_bind_eq_ok returned
    cases named : nonempty arn with
    | some arn =>
        rw [named] at rest
        rw [← Except.ok.inj (congrArg Prod.fst rest)]
        rfl
    | none =>
        rw [named] at rest
        cases congrArg Prod.fst rest
  obtain ⟨none_wanted, unwanted⟩ | ⟨one_wanted, options, wanted⟩ := policy_cases registry queueName
  · rw [unwanted] at returned
    rw [none_wanted, ← Except.ok.inj (congrArg Prod.fst returned)]
    rfl
  · rw [one_wanted]
    rw [wanted] at returned
    obtain ⟨answer, middle, -, rest⟩ := exec_bind_eq_ok returned
    cases known : found answer with
    | some url =>
        rw [known] at rest
        exact at_url rest
    | none =>
        rw [known] at rest
        obtain ⟨created, last, -, rest⟩ := exec_bind_eq_ok rest
        cases made : nonempty created with
        | some url =>
            rw [made] at rest
            exact at_url rest
        | none =>
            rw [made] at rest
            cases congrArg Prod.fst rest

/-- The requests for a queue: one with the policy, if the policy was found. -/
theorem requestsFor_create (texts : QueueTexts) {policyName queueName : String}
    (other : policyName ++ "_DLQ" ≠ queueName)
    {input : Option RedrivePolicy → CreateQueueCommandInput}
    (named : ∀ policy, (input policy).queueName = queueName) (service : σ) :
    requestsFor queueName
        (exec (create texts registry config (recording client) policyName input) (service, [])).2 =
      (exec (getDeadLetterQueuePolicy texts registry config (recording client) policyName)
        (service, [])).1.toOption.toList.map input := by
  obtain ⟨requests, asked, others⟩ :=
    preserves_policy registry config client texts policyName (service, [])
  have none_for : requests.filter (fun input => input.queueName = queueName) = [] := by
    refine List.filter_eq_nil_iff.mpr fun input member => ?_
    rw [others input member]
    simpa using other
  rw [create, exec_bind]
  rcases result : exec (getDeadLetterQueuePolicy texts registry config (recording client)
    policyName) (service, []) with ⟨outcome, after⟩
  rw [result, List.nil_append] at asked
  cases outcome with
  | error message =>
      change after.2.filter _ = []
      rw [asked]
      exact none_for
  | ok policy =>
      change (after.2 ++ [input policy]).filter _ = [input policy]
      rw [asked, List.filter_append, none_for]
      simp [named policy]

/-! ## Both sides -/

/-- The request for the queue of a topic. -/
def topicInput (registry : Registry η) (config : SqsConfiguration) (topic : String)
    (policy : Option RedrivePolicy) : CreateQueueCommandInput where
  queueName := if registry.fifo topic then topic ++ ".fifo" else topic
  receiveMessageWaitTimeSeconds := config.receiveMessageWaitTimeSeconds
  messageRetentionPeriod := config.messageRetentionPeriod
  fifoQueue := if registry.fifo topic then some "true" else none
  contentBasedDeduplication := if registry.fifo topic then some "true" else none
  redrivePolicy := policy

theorem topicInput_injective {topic : String} :
    Function.Injective (topicInput registry config topic) :=
  fun _ _ same => congrArg CreateQueueCommandInput.redrivePolicy same

variable {τ : Type} {runner : Runner τ} {topic : String}

theorem append_ne_of_length {front back back' : String} (lengths : back.length ≠ back'.length) :
    front ++ back ≠ front ++ back' := by
  intro same
  have counted := congrArg String.length same
  simp only [String.length_append] at counted
  omega

/-- The queue for messages that cannot be handled is another one than the queue of the topic. -/
theorem deadLetter_ne (topic : String) (fifo : Bool) :
    topic ++ "_DLQ" ≠ if fifo then topic ++ ".fifo" else topic := by
  cases fifo with
  | true => exact append_ne_of_length (by decide)
  | false =>
      intro same
      exact append_ne_of_length (show "_DLQ".length ≠ "".length by decide)
        (same.trans String.append_empty.symm)

/-- What follows the request does not ask for another queue. -/
theorem exec_create_then {α : Type} (texts : QueueTexts) (policyName : String)
    (input : Option RedrivePolicy → CreateQueueCommandInput) (value : α) (state : σ) :
    (exec (do
        let redrivePolicy ← getDeadLetterQueuePolicy texts registry config client policyName
        let _ ← client.createQueue (input redrivePolicy)
        pure value) state).2 =
      (exec (create texts registry config client policyName input) state).2 := by
  rw [create, exec_bind, exec_bind]
  rcases exec (getDeadLetterQueuePolicy texts registry config client policyName) state with
    ⟨outcome, middle⟩
  cases outcome with
  | error message => rfl
  | ok policy =>
      dsimp only
      rw [exec_bind]
      rcases exec (client.createQueue (input policy)) middle with ⟨created, after⟩
      cases created <;> rfl

/-- The runner asks for the queue with the policy under the topic. -/
theorem consumed_eq (service : σ) :
    (consumed runner config client topic service).2 =
      (exec (create SqsRunner.texts runner.registry config (recording client) topic
        (topicInput runner.registry config topic)) (service, [])).2 :=
  exec_create_then SqsRunner.texts topic (topicInput runner.registry config topic) true _

/-- A service that is only asked for an address stays as it is, and no request is recorded. -/
theorem exec_recording_getQueueUrl (asks : AsksOnly client) (queueName : String)
    (session : SqsSession (Recorded σ)) :
    exec (SqsSession.call ((recording client).getQueueUrl queueName)) session =
      ((exec (client.getQueueUrl queueName) session.service.1).1, session) := by
  have kept := asks queueName session.service.1
  rw [SqsSession.exec_call]
  change (_, { session with service := (_, session.service.2) }) = _
  rw [kept]
  rfl

/-- Where the attributes are configured, the producer asks for what the runner asks for. -/
theorem topicInput_of_configured (registry : Registry η) {seconds period : String}
    (waits : config.receiveMessageWaitTimeSeconds = some seconds)
    (retains : config.messageRetentionPeriod = some period) (policy : Option RedrivePolicy) :
    CreateQueueCommandInput.mk (if registry.fifo topic then topic ++ ".fifo" else topic)
      (some (config.receiveMessageWaitTimeSeconds.getD "20"))
      (some (config.messageRetentionPeriod.getD "604800"))
      (if registry.fifo topic then some "true" else none)
      (if registry.fifo topic then some "true" else none) policy =
        topicInput registry config topic policy := by
  simp only [topicInput, waits, retains, Option.getD_some]

/-- The producer asks for the queue with the policy under the name of the queue. -/
theorem produced_eq (filled : topic ≠ "") (plain : topic.endsWith ".fifo" = false)
    (asks : AsksOnly client) {seconds period : String}
    (waits : config.receiveMessageWaitTimeSeconds = some seconds)
    (retains : config.messageRetentionPeriod = some period) {service : σ}
    (missing :
      found (exec (client.getQueueUrl (SqsRunner.queueName runner topic)) service).1 = none)
    (sqsUrls : Dictionary String String) :
    produced runner config client topic service sqsUrls =
      (exec (create SqsProducer.texts runner.registry config (recording client)
        (SqsRunner.queueName runner topic) (topicInput runner.registry config topic))
          (service, [])).2 := by
  have name : SqsProducer.queueName runner.registry topic = SqsRunner.queueName runner topic :=
    SqsProducer.queueName_eq fun suffix => absurd suffix (by simp [plain])
  have option : SqsProducer.fifo runner.registry topic = runner.registry.fifo topic := by
    rw [SqsProducer.fifo, plain, Bool.false_or]
  rw [produced, SqsProducer.initializeTopic, decide_eq_true filled,
    exec_bind_ok (exec_ensure_true _ _), name, option, exec_bind_ok (exec_attempt _ _),
    exec_recording_getQueueUrl asks, missing]
  dsimp only
  rw [create, exec_bind, exec_bind, SqsSession.exec_call]
  rcases exec (getDeadLetterQueuePolicy SqsProducer.texts runner.registry config
    (recording client) (SqsRunner.queueName runner topic)) (service, []) with ⟨outcome, middle⟩
  cases outcome with
  | error message => rfl
  | ok policy =>
      dsimp only
      rw [SqsRunner.queueName, topicInput_of_configured runner.registry waits retains policy,
        exec_bind, SqsSession.exec_call]
      have alike := reported_alike "Error: Failed to call SQS createQueue: "
        ((recording client).createQueue (topicInput runner.registry config topic policy)) middle
      rw [← alike.2]
      rcases exec (reported "Error: Failed to call SQS createQueue: "
        ((recording client).createQueue (topicInput runner.registry config topic policy)))
          middle with ⟨created, after⟩
      cases created with
      | error message => rfl
      | ok url =>
          dsimp only
          cases nonempty url <;> rfl

/-- The policy that the runner finds decides what it asks for. -/
theorem requestsFor_consumed (service : σ) :
    requestsFor (SqsRunner.queueName runner topic) (consumed runner config client topic service).2 =
      (exec (getDeadLetterQueuePolicy SqsRunner.texts runner.registry config (recording client)
        topic) (service, [])).1.toOption.toList.map (topicInput runner.registry config topic) := by
  rw [consumed_eq]
  exact requestsFor_create SqsRunner.texts (deadLetter_ne topic _) (fun _ => rfl) service

/-- The policy that the producer finds decides what it asks for. -/
theorem requestsFor_produced (filled : topic ≠ "") (plain : topic.endsWith ".fifo" = false)
    (asks : AsksOnly client) {seconds period : String}
    (waits : config.receiveMessageWaitTimeSeconds = some seconds)
    (retains : config.messageRetentionPeriod = some period) {service : σ}
    (missing :
      found (exec (client.getQueueUrl (SqsRunner.queueName runner topic)) service).1 = none)
    (sqsUrls : Dictionary String String) :
    requestsFor (SqsRunner.queueName runner topic)
        (produced runner config client topic service sqsUrls) =
      (exec (getDeadLetterQueuePolicy SqsProducer.texts runner.registry config (recording client)
        (SqsRunner.queueName runner topic)) (service, [])).1.toOption.toList.map
          (topicInput runner.registry config topic) := by
  rw [produced_eq filled plain asks waits retains missing sqsUrls]
  exact requestsFor_create SqsProducer.texts
    (deadLetter_ne (SqsRunner.queueName runner topic) false) (fun _ => rfl) service

/-! ## When both sides agree -/

/-- A topic with a name, whose queue is first-in-first-out only where neither the topic nor the name
of the queue stands for a task that wants a queue for messages that cannot be handled. -/
def Clear (registry : Registry η) (topic : String) : Prop :=
  topic ≠ "" ∧ (registry.fifo topic = true →
    registry.deadLettered topic = false ∧ registry.deadLettered (topic ++ ".fifo") = false)

/-- Under these conditions both sides find the same policy. -/
theorem Clear.policy_eq (clear : Clear runner.registry topic) (service : Recorded σ) :
    (exec (getDeadLetterQueuePolicy SqsProducer.texts runner.registry config (recording client)
        (SqsRunner.queueName runner topic)) service).1.toOption =
      (exec (getDeadLetterQueuePolicy SqsRunner.texts runner.registry config (recording client)
        topic) service).1.toOption := by
  have unwanted {name : String} (missing : runner.registry.deadLettered name = false)
      (texts : QueueTexts) :
      getDeadLetterQueuePolicy texts runner.registry config (recording client) name =
        pure none := by
    obtain ⟨-, none_found⟩ | ⟨wanted, -⟩ := policy_cases runner.registry name
    · exact none_found _ texts config _
    · exact absurd (missing.symm.trans wanted) Bool.false_ne_true
  rw [SqsRunner.queueName]
  cases option : runner.registry.fifo topic with
  | false => exact (policy_alike _ _ topic service).1
  | true =>
      obtain ⟨missing, missing'⟩ := clear.2 option
      rw [if_pos rfl, unwanted missing', unwanted missing]

/-- A service that knows every queue but one, and creates what it is asked for. -/
def lacking (missing : String) : SqsClient Unit where
  getQueueUrl queueName := pure (if queueName = missing then none else some queueName)
  createQueue input := pure (some input.queueName)
  getQueueAttributes url := pure (some url)

/-- There, a policy names the queue that belongs to the name under which it is looked for. -/
theorem exec_policy_lacking (registry : Registry η) (config : SqsConfiguration) (texts : QueueTexts)
    {missing queueName : String} (other : queueName ++ "_DLQ" ≠ missing)
    (service : Recorded Unit) :
    ∃ policy, exec (getDeadLetterQueuePolicy texts registry config (recording (lacking missing))
        queueName) service = (.ok policy, service) ∧
      policy.isSome = registry.deadLettered queueName ∧
      ∀ redrive, policy = some redrive → redrive.deadLetterTargetArn = queueName ++ "_DLQ" := by
  obtain ⟨none_wanted, unwanted⟩ | ⟨one_wanted, options, wanted⟩ := policy_cases registry queueName
  · refine ⟨none, by rw [unwanted]; rfl, none_wanted.symm, ?_⟩
    intro redrive same
    cases same
  · have filled : queueName ++ "_DLQ" ≠ "" := by
      intro empty
      have counted := congrArg String.length empty
      simp at counted
    have known : nonempty (some (queueName ++ "_DLQ")) = some (queueName ++ "_DLQ") := by
      simp [nonempty, filled]
    have answered : exec (recording (lacking missing) |>.getQueueUrl (queueName ++ "_DLQ"))
        service =
        (.ok (some (queueName ++ "_DLQ")), service) := by
      change (Except.ok (if queueName ++ "_DLQ" = missing then none else _), service) = _
      rw [if_neg other]
    refine ⟨some ⟨queueName ++ "_DLQ", toString (options.maxReceiveCount.getD 5)⟩, ?_,
      one_wanted.symm, fun redrive same => by rw [← Option.some.inj same]⟩
    rw [wanted, wantedPolicy, exec_bind_ok (exec_attempt _ _), answered]
    dsimp only [found]
    rw [known]
    dsimp only
    have named : exec (reported ("Error: " ++ texts.label ++
        "Failed to call SQS getQueueAttributes: ")
          (recording (lacking missing) |>.getQueueAttributes (queueName ++ "_DLQ"))) service =
        (.ok (some (queueName ++ "_DLQ")), service) := rfl
    rw [policyAt, exec_bind_ok named, known]
    rfl

/-- Both sides create the same queue exactly for such topics. -/
theorem sameCreation_iff (plain : topic.endsWith ".fifo" = false) {seconds period : String}
    (waits : config.receiveMessageWaitTimeSeconds = some seconds)
    (retains : config.messageRetentionPeriod = some period) :
    SameCreation runner config topic ↔ Clear runner.registry topic := by
  constructor
  · intro same
    have other : topic ++ "_DLQ" ≠ SqsRunner.queueName runner topic := deadLetter_ne topic _
    have other' : SqsRunner.queueName runner topic ++ "_DLQ" ≠ SqsRunner.queueName runner topic :=
      deadLetter_ne _ false
    have missing : found (exec ((lacking (SqsRunner.queueName runner topic)).getQueueUrl
        (SqsRunner.queueName runner topic)) ()).1 = none := by
      change found (.ok (if _ = _ then none else _)) = none
      rw [if_pos rfl]
      rfl
    obtain ⟨agree, -⟩ := same Unit _ (fun _ _ => rfl) () .empty missing
    obtain ⟨policy, returned, present, names⟩ :=
      exec_policy_lacking runner.registry config SqsRunner.texts other ((), [])
    obtain ⟨policy', returned', present', names'⟩ :=
      exec_policy_lacking runner.registry config SqsProducer.texts other' ((), [])
    rw [requestsFor_consumed, returned] at agree
    have filled : topic ≠ "" := by
      rintro rfl
      cases agree
    refine ⟨filled, fun option => ?_⟩
    rw [requestsFor_produced filled plain (fun _ _ => rfl) waits retains missing,
      returned'] at agree
    obtain rfl : policy' = policy := topicInput_injective (List.singleton_inj.mp agree)
    rw [SqsRunner.queueName, if_pos option] at present' names'
    rw [← present, ← present']
    cases policy' with
    | none => exact ⟨rfl, rfl⟩
    | some redrive =>
        -- The two policies name different queues.
        have targets := (names redrive rfl).symm.trans (names' redrive rfl)
        have counted := congrArg String.length targets
        simp at counted
  · intro clear σ client asks service sqsUrls missing
    rw [requestsFor_produced clear.1 plain asks waits retains missing, requestsFor_consumed,
      clear.policy_eq]
    refine ⟨rfl, fun input member => ?_, fun created empty => ?_⟩
    · obtain ⟨policy, found, rfl⟩ := List.mem_map.mp member
      rw [Option.mem_toList] at found
      rcases result : exec (getDeadLetterQueuePolicy SqsRunner.texts runner.registry config
        (recording client) topic) (service, []) with ⟨outcome, after⟩
      rw [result] at found
      cases outcome with
      | error message => cases found
      | ok policy' =>
          obtain rfl := Option.some.inj found
          exact isSome_policy result
    · obtain ⟨policy, middle, returned, -⟩ := exec_bind_eq_ok (Prod.ext created rfl)
      rw [returned] at empty
      cases empty

end

/-! ## A first-in-first-out task with a queue for messages that cannot be handled -/

/-- A runner with one task. -/
def ordersRunner (options : TaskOptions) : Runner Unit :=
  Runner.serving (Registry.empty.addNewTask
    { name := "orders", topic := "orders", subscribe := fun _ _ => pure (), options })

/-- A configuration with both settings. -/
def bothSet : SqsConfiguration := ⟨some "20", some "604800"⟩

/-- The options of a first-in-first-out task with a queue for messages that cannot be handled. -/
def orderedOptions : TaskOptions := { fifo := some true, deadLetterQueue := some true }

theorem orders_plain : "orders".endsWith ".fifo" = false := by
  rw [← String.endsWith_toSlice, String.Slice.endsWith_string_eq_false_iff, String.copy_toSlice]
  decide

/-- The producer asks for the queue without a policy, the runner with one. -/
theorem orders_created_differently :
    (requestsFor "orders.fifo" (produced (ordersRunner orderedOptions) bothSet
        (lacking "orders.fifo") "orders" () .empty)).map
          (fun input => (input.queueName, input.redrivePolicy.isSome)) =
        [("orders.fifo", false)] ∧
      (requestsFor "orders.fifo" (consumed (ordersRunner orderedOptions) bothSet
        (lacking "orders.fifo") "orders" ()).2).map
          (fun input => (input.queueName, input.redrivePolicy.isSome)) =
        [("orders.fifo", true)] ∧
      ¬ SameCreation (ordersRunner orderedOptions) bothSet "orders" := by
  refine ⟨by decide +kernel, by decide +kernel, fun same => ?_⟩
  have clear := (sameCreation_iff orders_plain rfl rfl).mp same
  exact absurd (clear.2 rfl).1 (by decide +kernel)

/-- The queue of a standard task is created with the policy on both sides. -/
theorem standard_orders_created_alike :
    SameCreation (ordersRunner { deadLetterQueue := some true }) bothSet "orders" :=
  (sameCreation_iff orders_plain rfl rfl).mpr ⟨by decide, fun ordered => absurd ordered (by decide)⟩

end QueueCreation

end Steveo
