import Steveo.Library.Focus
import Steveo.Messaging.QueueSetup
import Steveo.Messaging.Sending

/-!
# Sends that share stored addresses

A producer stores the address of a queue when it has found or created it, and all its sends look
there first.  The sends run at the same time: several of them may look for the same queue, and each
may find what another one has stored.
-/

namespace Steveo

namespace SharedAddresses

open Async
open QueueSetup.Sqs (Client)
open SqsProducer (SendMessageCommandInput getPayload)

/-! ## One send -/

/-- What a send reads, stores and asks.  A request to send a message comes with the topic that the
message is for. -/
inductive Call
  /-- Read the stored addresses. -/
  | sqsUrls
  | store (queueName url : String)
  | getQueueUrl (queueName : String)
  | createQueue (input : CreateQueueCommandInput)
  | getQueueAttributes (queueUrl : String)
  | sendMessage (topic : String) (data : SendMessageCommandInput)
  | emit (event : ProducerEvent)

abbrev Call.Answer : Call → Type
  | .sqsUrls => Dictionary String String
  | .getQueueUrl _ | .createQueue _ | .getQueueAttributes _ => Option String
  | .store _ _ | .sendMessage _ _ | .emit _ => Unit

/-- The producer's client. -/
def client : Client Call.Answer where
  getQueueUrl queueName := perform (Call.getQueueUrl queueName)
  createQueue input := perform (Call.createQueue input)
  getQueueAttributes queueUrl := perform (Call.getQueueAttributes queueUrl)

/-- Store an address and answer it. -/
def stored (queueName queueUrl : String) : Async Call.Answer String := do
  perform (Call.store queueName queueUrl)
  pure queueUrl

variable {σ η : Type}

/-- What a producer reads besides. -/
structure Producer (η : Type) where
  registry : Registry η
  config : SqsConfiguration
  print : Json → String

/-- A call of `send`. -/
structure Message where
  topic : String
  payload : Option Json
  options : Fields
  origin : Origin

variable (producer : Producer η)

/-- Find or create the queue of a topic, and store its address. -/
def initializeTopic (topic : String) : Async Call.Answer String := do
  ensure (topic ≠ "") "Error: Topic cannot be empty"
  let fifoAttribute := if SqsProducer.fifo producer.registry topic then some "true" else none
  let queueName := SqsProducer.queueName producer.registry topic
  match found (← (client.getQueueUrl queueName).attempt) with
  | some queueUrl => stored queueName queueUrl
  | none => do
      let redrivePolicy ← QueueSetup.Sqs.getDeadLetterQueuePolicy SqsProducer.texts
        producer.registry producer.config client queueName
      let created ← QueueSetup.Sqs.reported "Error: Failed to call SQS createQueue: "
        (client.createQueue
          { queueName
            receiveMessageWaitTimeSeconds :=
              some (producer.config.receiveMessageWaitTimeSeconds.getD "20")
            messageRetentionPeriod :=
              some (producer.config.messageRetentionPeriod.getD "604800")
            fifoQueue := fifoAttribute
            contentBasedDeduplication := fifoAttribute
            redrivePolicy })
      match nonempty created with
      | some queueUrl => stored queueName queueUrl
      | none => reject "Error: SQS createQueue response does not contain a queue name"

/-- Send a payload to the queue of its topic, which is looked for unless its address is stored. -/
def deliver (message : Message) : Async Call.Answer Unit := do
  let sqsUrls ← perform Call.sqsUrls
  runIf (!Property.truthy (sqsUrls.property message.topic)) (do
    let _ ← initializeTopic producer message.topic)
  let fields ← ofExcept (messageFields message.payload)
  let sqsUrls ← perform Call.sqsUrls
  let data ← ofExcept (getPayload producer.registry sqsUrls producer.print message.origin fields
    message.topic message.options)
  perform (Call.sendMessage message.topic data)

/-- Send a payload and report how that has gone. -/
def send (message : Message) : Async Call.Answer Unit := do
  match ← (do
    deliver producer message
    perform (Call.emit (.producer_success message.topic)) : Async Call.Answer Unit).attempt with
  | .ok _ => pure ()
  | .error ex => do
      perform (Call.emit (.producer_failure message.topic ex))
      reject ex

/-! ### A send that is not interrupted -/

section Interpretation

open Steveo.Action (Part focus)

/-- The service of a session. -/
def serviceOf : Part (SqsSession σ) σ where
  view := SqsSession.service
  update service session := { session with service }
  view_update _ _ := rfl
  update_update _ _ _ := rfl
  update_view _ := rfl

/-- The session of a producer in the course of a call. -/
def sessionOf : Part (Sending σ) (SqsSession σ) where
  view := Sending.session
  update session sending := { sending with session }
  view_update _ _ := rfl
  update_update _ _ _ := rfl
  update_view _ := rfl

theorem call_eq_focus {α : Type} (action : Action σ α) :
    SqsSession.call action = focus serviceOf action := rfl

theorem onSession_eq_focus {α : Type} (action : Action (SqsSession σ) α) :
    Sending.onSession action = focus sessionOf action := rfl

variable {τ : Type} (part : Part τ σ)

/-- A client of a service that is a part of a state. -/
def focused (client : SqsClient σ) : SqsClient τ where
  getQueueUrl queueName := focus part (client.getQueueUrl queueName)
  createQueue input := focus part (client.createQueue input)
  getQueueAttributes queueUrl := focus part (client.getQueueAttributes queueUrl)

theorem focus_reported {α : Type} (text : String) (action : Action σ α) :
    focus part (reported text action) = reported text (focus part action) := by
  rw [reported, reported, Action.focus_bind, Action.focus_attempt]
  refine bind_congr fun outcome => ?_
  cases outcome with
  | ok value => exact Action.focus_pure part value
  | error message => exact Action.focus_throw part _

theorem focus_policy (texts : QueueTexts) (registry : Registry η) (config : SqsConfiguration)
    (client : SqsClient σ) (queueName : String) :
    focus part (getDeadLetterQueuePolicy texts registry config client queueName) =
      getDeadLetterQueuePolicy texts registry config (focused part client) queueName := by
  rw [getDeadLetterQueuePolicy, getDeadLetterQueuePolicy]
  cases registry.getTask queueName with
  | none => exact Action.focus_pure part _
  | some task =>
      dsimp only
      split
      · let policy arn := RedrivePolicy.mk arn (toString (task.options.maxReceiveCount.getD 5))
        have ends : ∀ url, focus part (do
            let arn ← reported
              ("Error: " ++ texts.label ++ "Failed to call SQS getQueueAttributes: ")
              (client.getQueueAttributes url)
            match nonempty arn with
            | some arn => pure (some (policy arn))
            | none => throw ("Error: " ++ texts.label ++ "Failed to retrieve the DLQ ARN")) = (do
            let arn ← reported
              ("Error: " ++ texts.label ++ "Failed to call SQS getQueueAttributes: ")
              ((focused part client).getQueueAttributes url)
            match nonempty arn with
            | some arn => pure (some (policy arn))
            | none =>
                throw ("Error: " ++ texts.label ++ "Failed to retrieve the DLQ ARN")) := by
          intro url
          rw [Action.focus_bind, focus_reported]
          refine bind_congr fun arn => ?_
          cases nonempty arn with
          | some arn => exact Action.focus_pure part _
          | none => exact Action.focus_throw part _
        rw [Action.focus_bind, Action.focus_attempt]
        refine bind_congr fun located => ?_
        cases found located with
        | some url => exact ends url
        | none =>
            dsimp only
            rw [Action.focus_bind, focus_reported]
            refine bind_congr fun created => ?_
            cases nonempty created with
            | some url => exact ends url
            | none => exact Action.focus_throw part _
      · exact Action.focus_pure part _

/-- How a producer answers a send that is not interrupted. -/
def producing (setting : SqsProducer.Setting σ η) :
    ∀ call : Call, Action (Sending σ) call.Answer
  | .sqsUrls => do
      let sending ← get
      pure sending.session.sqsUrls
  | .store queueName queueUrl => Sending.onSession (SqsSession.store queueName queueUrl)
  | .getQueueUrl queueName =>
      Sending.onSession (SqsSession.call (setting.client.getQueueUrl queueName))
  | .createQueue input => Sending.onSession (SqsSession.call (setting.client.createQueue input))
  | .getQueueAttributes queueUrl =>
      Sending.onSession (SqsSession.call (setting.client.getQueueAttributes queueUrl))
  | .sendMessage _ data => Sending.give (.object data.messageBody) (setting.sendMessage data)
  | .emit event => Sending.emit event

/-- What the producer reads besides. -/
def Producer.of (setting : SqsProducer.Setting σ η) : Producer η :=
  ⟨setting.registry, setting.config, setting.print⟩

variable (setting : SqsProducer.Setting σ η)

theorem client_actsAs : client.ActsAs (producing setting)
    (focused sessionOf (focused serviceOf setting.client)) :=
  ⟨fun _ => interpret_perform _ _, fun _ => interpret_perform _ _, fun _ => interpret_perform _ _⟩

@[simp] theorem interpret_stored (queueName queueUrl : String) :
    (stored queueName queueUrl).interpret (producing setting) =
      Sending.onSession (do SqsSession.store queueName queueUrl; pure queueUrl) := by
  rw [stored, onSession_eq_focus, Action.focus_bind, interpret_bind, interpret_perform]
  exact bind_congr fun _ => (Action.focus_pure sessionOf queueUrl).symm

theorem interpret_initializeTopic (topic : String) :
    (initializeTopic (Producer.of setting) topic).interpret (producing setting) =
      Sending.onSession (SqsProducer.initializeTopic setting.registry setting.config
        setting.client topic) := by
  have acts := client_actsAs setting
  rw [initializeTopic, SqsProducer.initializeTopic, onSession_eq_focus, Action.focus_bind,
    Action.focus_ensure, interpret_bind, interpret_ensure]
  refine bind_congr fun _ => ?_
  rw [Action.focus_bind, Action.focus_attempt, interpret_bind, interpret_attempt,
    acts.getQueueUrl]
  refine bind_congr fun located => ?_
  cases found located with
  | some queueUrl => exact interpret_stored setting _ _
  | none =>
      dsimp only
      rw [Action.focus_bind, interpret_bind, call_eq_focus, focus_policy, focus_policy,
        QueueSetup.Sqs.interpret_getDeadLetterQueuePolicy _ acts]
      refine bind_congr fun redrivePolicy => ?_
      rw [Action.focus_bind, interpret_bind, call_eq_focus, focus_reported, focus_reported,
        QueueSetup.Sqs.interpret_reported, acts.createQueue]
      refine bind_congr fun created => ?_
      cases nonempty created with
      | some queueUrl => exact interpret_stored setting _ _
      | none => exact (Action.focus_throw sessionOf _).symm

/-- The producer leaves the context of a call as it is. -/
theorem deliver_keeps_context (origin : Origin) (options : Fields) :
    Action.Preserves (fun before after : Sending σ => after.context = before.context)
      (SqsProducer.deliver setting origin options) := by
  have effects : Action.EffectRelation fun before after : Sending σ =>
      after.context = before.context := ⟨fun _ => rfl, fun first second => second.trans first⟩
  refine effects.bind (fun _ => rfl) fun sending => ?_
  refine effects.bind (effects.runIf _ (effects.bind (fun _ => rfl) fun _ => effects.pure _))
    fun _ => ?_
  refine effects.bind (effects.ofExcept _) fun fields => ?_
  refine effects.bind (fun _ => rfl) fun sending => ?_
  exact effects.bind (effects.ofExcept _) fun data => fun _ => rfl

/-- In the context of its message, a send delivers the message as the producer does. -/
theorem exec_interpret_deliver (message : Message) {sending : Sending σ}
    (context : sending.context = .fresh message.topic message.payload) :
    Action.exec ((deliver (Producer.of setting) message).interpret (producing setting)) sending =
      Action.exec (SqsProducer.deliver setting message.origin message.options) sending := by
  rw [deliver, SqsProducer.deliver, interpret_bind, interpret_perform,
    Action.exec_bind_ok (show Action.exec (producing setting .sqsUrls) sending =
      (.ok sending.session.sqsUrls, sending) from rfl),
    Action.exec_bind_ok (Action.exec_get sending), context]
  refine congrArg (fun action => Action.exec action sending) ?_
  rw [interpret_bind, interpret_runIf, interpret_bind, interpret_initializeTopic]
  refine bind_congr fun _ => ?_
  rw [interpret_bind, interpret_ofExcept]
  refine bind_congr fun fields => ?_
  rw [interpret_bind, interpret_perform]
  refine Eq.trans (bind_assoc _ _ _) (bind_congr fun read => ?_)
  rw [pure_bind, interpret_bind, interpret_ofExcept]
  exact bind_congr fun data => interpret_perform _ _

/-- A send that is not interrupted is that of a producer without middleware. -/
theorem interpret_send (message : Message) :
    (do
      Sending.enter (.fresh message.topic message.payload)
      (send (Producer.of setting) message).interpret (producing setting)) =
    SqsProducer.send setting [] message.origin message.topic message.payload message.options := by
  refine Action.ext fun sending => ?_
  let inside : Sending σ := { sending with context := .fresh message.topic message.payload }
  have goes : Action.exec (do
      (deliver (Producer.of setting) message).interpret (producing setting)
      Sending.emit (.producer_success message.topic)) inside =
      Action.exec (SqsProducer.callback setting message.origin message.options) inside := by
    have kept := deliver_keeps_context setting message.origin message.options inside
    rw [SqsProducer.callback, Action.exec_bind, Action.exec_bind,
      exec_interpret_deliver setting message rfl]
    rcases delivered : Action.exec (SqsProducer.deliver setting message.origin message.options)
      inside with ⟨thrown | value, after⟩
    · rfl
    · rw [delivered] at kept
      dsimp only at kept ⊢
      rw [Action.exec_bind_ok (Action.exec_get after), kept]
      rfl
  have wrapped : Action.exec (wrap [] message.topic message.payload
      (SqsProducer.callback setting message.origin message.options)) sending =
      Action.exec (SqsProducer.callback setting message.origin message.options) inside := rfl
  rw [SqsProducer.send, reportFailure, Action.exec_bind_ok (show Action.exec (Sending.enter
    (.fresh message.topic message.payload)) sending = (.ok (), inside) from rfl), send,
    interpret_bind, interpret_attempt, interpret_bind, interpret_perform,
    Action.exec_bind_ok (Action.exec_attempt _ _), Action.exec_bind_ok (Action.exec_attempt _ _),
    wrapped]
  have emits : producing setting (.emit (.producer_success message.topic)) =
    Sending.emit (.producer_success message.topic) := rfl
  rw [emits, goes]
  rcases Action.exec (SqsProducer.callback setting message.origin message.options) inside with
    ⟨thrown | value, after⟩
  · dsimp only
    rw [interpret_bind, interpret_perform]
    rfl
  · rfl

end Interpretation

/-! ## What a send knows -/

/-- An address has been stored under a name. -/
def Stored (entries : List (Entry Call.Answer)) (queueName : String) : Prop :=
  ∃ queueUrl, (⟨.store queueName queueUrl, .ok ()⟩ : Entry Call.Answer) ∈ entries

/-- The addresses have been read, and there was one under a name. -/
def Found (entries : List (Entry Call.Answer)) (queueName : String) : Prop :=
  ∃ sqsUrls, (⟨.sqsUrls, .ok sqsUrls⟩ : Entry Call.Answer) ∈ entries ∧
    Property.truthy (sqsUrls.property queueName) = true

/-- The service has answered with the address of a queue. -/
def Answered (entries : List (Entry Call.Answer)) (queueName queueUrl : String) : Prop :=
  (⟨.getQueueUrl queueName, .ok (some queueUrl)⟩ : Entry Call.Answer) ∈ entries ∨
    ∃ input : CreateQueueCommandInput, input.queueName = queueName ∧
      (⟨.createQueue input, .ok (some queueUrl)⟩ : Entry Call.Answer) ∈ entries

/-- The queue to which the messages of a topic are sent. -/
def sqsTopic (registry : Registry η) (topic : String) : String :=
  if registry.fifo topic then topic ++ ".fifo" else topic

/-- Only addresses that the service has answered with are stored, under the name of the queue.  A
message is made with the addresses that have been read last, when the address of its topic had been
found or the one of its queue been stored. -/
def Justified (entries : List (Entry Call.Answer)) : Call → Prop
  | .store queueName queueUrl =>
      (∃ topic, queueName = SqsProducer.queueName producer.registry topic) ∧ queueUrl ≠ "" ∧
        Answered entries queueName queueUrl
  | .sendMessage topic data => ∃ front sqsUrls,
      entries = front ++ [⟨.sqsUrls, .ok sqsUrls⟩] ∧
        (Found front topic ∨ Stored front (SqsProducer.queueName producer.registry topic)) ∧
          data.queueUrl = sqsUrls.property (sqsTopic producer.registry topic)
  | _ => True

section Asks

variable {producer} {entries : List (Entry Call.Answer)}

/-- Looking for the policy of a queue stores and sends nothing. -/
theorem policy_asks (texts : QueueTexts) (config : SqsConfiguration) (queueName : String) :
    (QueueSetup.Sqs.getDeadLetterQueuePolicy texts producer.registry config client queueName).Asks
      (Justified producer) entries := by
  rw [QueueSetup.Sqs.getDeadLetterQueuePolicy]
  cases producer.registry.getTask queueName with
  | none => trivial
  | some task =>
      dsimp only
      split
      · have ends : ∀ url after, Asks (Justified producer) (do
            let dlQueueArn ← QueueSetup.Sqs.reported
              ("Error: " ++ texts.label ++ "Failed to call SQS getQueueAttributes: ")
              (client.getQueueAttributes url)
            match nonempty dlQueueArn with
            | some arn =>
                pure (some
                  { deadLetterTargetArn := arn
                    maxReceiveCount := toString (task.options.maxReceiveCount.getD 5) })
            | none => reject ("Error: " ++ texts.label ++ "Failed to retrieve the DLQ ARN") :
              Async Call.Answer (Option RedrivePolicy)) after := by
          intro url after
          refine .always (.always (.attempt ⟨trivial, fun _ => trivial⟩) fun outcome _ => ?_)
            fun arn _ => ?_
          · cases outcome <;> trivial
          · cases nonempty arn <;> trivial
        refine .always (.attempt ⟨trivial, fun _ => trivial⟩) fun located _ => ?_
        cases found located with
        | some url => exact ends url _
        | none =>
            refine .always (.always (.attempt ⟨trivial, fun _ => trivial⟩) fun outcome _ => ?_)
              fun created _ => ?_
            · cases outcome <;> trivial
            · cases nonempty created with
              | some url => exact ends url _
              | none => trivial
      · trivial

theorem stored_asks {topic queueUrl : String} (given : queueUrl ≠ "")
    (answered : Answered entries (SqsProducer.queueName producer.registry topic) queueUrl) :
    (stored (SqsProducer.queueName producer.registry topic) queueUrl).Asks (Justified producer)
      entries :=
  .bind ⟨⟨⟨topic, rfl⟩, given, answered⟩, fun _ => trivial⟩ fun _ _ _ _ => trivial

theorem stored_ends (queueName queueUrl : String) :
    (stored queueName queueUrl).Ends (fun _ _ => True) entries fun after outcome =>
      ∀ url, outcome = .ok url → Stored after queueName := by
  rw [stored, ends_bind]
  intro answer _
  cases answer with
  | error message => exact fun url same => by cases same
  | ok value =>
      exact fun url _ => ⟨queueUrl, List.mem_append_right _ (List.mem_singleton_self _)⟩

/-- An address that is not empty has been answered. -/
theorem found_eq_some {answer : Except String (Option String)} {url : String}
    (same : found answer = some url) : answer = .ok (some url) ∧ url ≠ "" := by
  cases answer with
  | error message => cases same
  | ok value =>
      obtain ⟨rfl, filled⟩ := Option.filter_eq_some_iff.mp same
      exact ⟨rfl, of_decide_eq_true filled⟩

/-- What is stored has been answered. -/
theorem initializeTopic_asks (topic : String) :
    (initializeTopic producer topic).Asks (Justified producer) entries := by
  rw [initializeTopic]
  refine .always (asks_ensure _ _ _) fun _ after => ?_
  refine .bind (.attempt ⟨trivial, fun _ => trivial⟩) ?_
  rw [ends_attempt]
  intro answer _ value same
  obtain rfl := Except.ok.inj same
  cases located : found answer with
  | some url =>
      obtain ⟨rfl, given⟩ := found_eq_some located
      exact stored_asks given (.inl (List.mem_append_right _ (List.mem_singleton_self _)))
  | none =>
      refine .always (policy_asks _ _ _) fun redrivePolicy later => ?_
      refine .bind (.always (.attempt ⟨trivial, fun _ => trivial⟩) fun outcome _ => ?_) ?_
      · cases outcome <;> trivial
      · rw [QueueSetup.Sqs.ends_reported]
        intro created _ value same
        cases created with
        | error message => cases same
        | ok answered =>
            obtain rfl : answered = value := Except.ok.inj same
            cases named : nonempty answered with
            | none => trivial
            | some url =>
                obtain ⟨rfl, given⟩ := Option.filter_eq_some_iff.mp named
                exact stored_asks (of_decide_eq_true given)
                  (.inr ⟨_, rfl, List.mem_append_right _ (List.mem_singleton_self _)⟩)

/-- When `initializeTopic` returns, it has stored an address. -/
theorem initializeTopic_stores (topic : String) :
    (initializeTopic producer topic).Ends (fun _ _ => True) entries fun after outcome =>
      ∀ url, outcome = .ok url →
        Stored after (SqsProducer.queueName producer.registry topic) := by
  rw [initializeTopic, ends_bind]
  refine .of_forall _ fun after outcome => ?_
  cases outcome with
  | error message => exact fun url same => by cases same
  | ok value =>
      dsimp only
      rw [ends_bind, ends_attempt]
      intro answer _
      rw [ends_settled]
      dsimp only
      cases located : found answer with
      | some url => exact stored_ends _ _
      | none =>
          dsimp only
          rw [ends_bind]
          refine .of_forall _ fun later outcome => ?_
          cases outcome with
          | error message => exact fun url same => by cases same
          | ok redrivePolicy =>
              dsimp only
              rw [ends_bind]
              refine .of_forall _ fun last outcome => ?_
              cases outcome with
              | error message => exact fun url same => by cases same
              | ok created =>
                  dsimp only
                  cases nonempty created with
                  | some url => exact stored_ends _ _
                  | none => exact fun url same => by cases same

theorem deliver_asks (message : Message) :
    (deliver producer message).Asks (Justified producer) [] := by
  rw [deliver]
  refine .bind ⟨trivial, fun _ => trivial⟩ fun read _ sqsUrls same => ?_
  obtain rfl : read = .ok sqsUrls := same
  have continues : ∀ front, Found front message.topic ∨
      Stored front (SqsProducer.queueName producer.registry message.topic) →
        Asks (Justified producer) (do
          let fields ← ofExcept (messageFields message.payload)
          let sqsUrls ← perform Call.sqsUrls
          let data ← ofExcept (getPayload producer.registry sqsUrls producer.print message.origin
            fields message.topic message.options)
          perform (Call.sendMessage message.topic data) : Async Call.Answer Unit) front := by
    intro front ready
    refine .bind trivial fun fields _ => ?_
    refine .bind ⟨trivial, fun _ => trivial⟩ fun read _ sqsUrls same => ?_
    obtain rfl : read = .ok sqsUrls := same
    refine .bind trivial fun data made => ?_
    obtain ⟨queueUrl, -⟩ := SqsProducer.getPayload_ok made
    exact ⟨⟨front, sqsUrls, rfl, ready, queueUrl⟩, fun _ => trivial⟩
  rw [runIf]
  cases known : Property.truthy (sqsUrls.property message.topic) with
  | true => exact .bind trivial fun _ _ => continues _ (.inl ⟨sqsUrls, by simp, known⟩)
  | false =>
      refine .bind (.always (initializeTopic_asks _) fun _ _ => trivial) ?_
      rw [Bool.not_false, if_pos rfl, ends_bind]
      refine (initializeTopic_stores _).imp fun after outcome stores => ?_
      cases outcome with
      | error message => exact fun value same => by cases same
      | ok url => exact fun value _ => continues _ (.inr (stores url rfl))

theorem send_asks (message : Message) : (send producer message).Asks (Justified producer) [] := by
  rw [send]
  refine .always (.attempt (.always (deliver_asks message) fun _ _ =>
    ⟨trivial, fun _ => trivial⟩)) fun outcome _ => ?_
  cases outcome with
  | ok value => trivial
  | error ex => exact .always ⟨trivial, fun _ => trivial⟩ fun _ _ => trivial

end Asks

/-! ## All sends of a producer -/

/-- A service names the address of the queue that it is asked for. -/
structure Service (χ σ : Type) where
  getQueueUrl : χ → String → Action σ (Option String)
  createQueue : χ → CreateQueueCommandInput → Action σ (Option String)
  getQueueAttributes : χ → String → Action σ (Option String)
  sendMessage : χ → SendMessageCommandInput → Action σ Unit
  emit : χ → ProducerEvent → Action σ Unit
  /-- The address of a queue. -/
  addresses : String → String → Prop
  located : ∀ choice queueName state url,
    (Action.exec (getQueueUrl choice queueName) state).1 = .ok (some url) → url ≠ "" →
      addresses queueName url
  created : ∀ choice input state url,
    (Action.exec (createQueue choice input) state).1 = .ok (some url) → url ≠ "" →
      addresses input.queueName url

variable {χ : Type} (service : Service χ σ)

/-- The producer answers a send from what it has stored, the service answers everything else. -/
def serve (choice : χ) : ∀ call : Call, Action (SqsSession σ) call.Answer
  | .sqsUrls => do
      let session ← get
      pure session.sqsUrls
  | .store queueName queueUrl => SqsSession.store queueName queueUrl
  | .getQueueUrl queueName => SqsSession.call (service.getQueueUrl choice queueName)
  | .createQueue input => SqsSession.call (service.createQueue choice input)
  | .getQueueAttributes queueUrl => SqsSession.call (service.getQueueAttributes choice queueUrl)
  | .sendMessage _ data => SqsSession.call (service.sendMessage choice data)
  | .emit event => SqsSession.call (service.emit choice event)

/-- Addresses of queues of the producer's topics, under the names of the queues. -/
def Book (registry : Registry η) (sqsUrls : Dictionary String String) : Prop :=
  ∀ key url, sqsUrls.get key = some url → url ≠ "" ∧ service.addresses key url ∧
    ∃ topic, key = SqsProducer.queueName registry topic

/-- What an answer has told: which address a queue has, what is stored, and for the stored
addresses that have been read, that nothing that the send knew of is missing. -/
def Fact (front : List (Entry Call.Answer)) : Entry Call.Answer → SqsSession σ → Prop
  | ⟨.getQueueUrl queueName, .ok (some url)⟩, _ => url ≠ "" → service.addresses queueName url
  | ⟨.createQueue input, .ok (some url)⟩, _ => url ≠ "" → service.addresses input.queueName url
  | ⟨.store queueName _, .ok _⟩, session =>
      queueName ≠ "__proto__" → (session.sqsUrls.get queueName).isSome = true
  | ⟨.sqsUrls, .ok sqsUrls⟩, session =>
      Book service producer.registry sqsUrls ∧
        (∀ key, (sqsUrls.get key).isSome = true → (session.sqsUrls.get key).isSome = true) ∧
        (∀ key, key ∉ OBJECT_PROTOTYPE → Found front key → (sqsUrls.get key).isSome = true) ∧
        ∀ key, key ≠ "__proto__" → Stored front key → (sqsUrls.get key).isSome = true
  | ⟨.sendMessage topic data, _⟩, _ => Justified producer front (.sendMessage topic data)
  | _, _ => True

section Truth

variable {producer service} {session : SqsSession σ}

/-- A call keeps every stored address. -/
theorem sqsUrls_serve (choice : χ) (call : Call) (session : SqsSession σ) :
    (Action.exec (serve service choice call) session).2.sqsUrls =
      match call with
      | .store queueName queueUrl => storeUrl session.sqsUrls queueName queueUrl
      | _ => session.sqsUrls := by
  cases call <;> rfl

theorem isSome_storeUrl {sqsUrls : Dictionary String String} {key : String}
    (there : (sqsUrls.get key).isSome = true) (queueName queueUrl : String) :
    ((storeUrl sqsUrls queueName queueUrl).get key).isSome = true := by
  rw [storeUrl]
  split
  · exact there
  · rw [Dictionary.get_set]
    split
    · rfl
    · exact there

theorem isSome_serve {key : String} (there : (session.sqsUrls.get key).isSome = true) (choice : χ)
    (call : Call) :
    ((Action.exec (serve service choice call) session).2.sqsUrls.get key).isSome = true := by
  rw [sqsUrls_serve]
  split
  · exact isSome_storeUrl there _ _
  · exact there

/-- What has been told stays true. -/
theorem Fact.stays {front : List (Entry Call.Answer)} {entry : Entry Call.Answer}
    (fact : Fact producer service front entry session) (choice : χ) (call : Call) :
    Fact producer service front entry (Action.exec (serve service choice call) session).2 := by
  obtain ⟨asked, answer⟩ := entry
  cases asked with
  | sqsUrls =>
      cases answer with
      | error message => trivial
      | ok sqsUrls =>
          obtain ⟨book, there, known⟩ := fact
          exact ⟨book, fun key present => isSome_serve (there key present) choice call, known⟩
  | store queueName queueUrl =>
      cases answer with
      | error message => trivial
      | ok value => exact fun ordinary => isSome_serve (fact ordinary) choice call
  | getQueueUrl queueName =>
      cases answer with
      | error message => trivial
      | ok value => cases value <;> exact fact
  | createQueue input =>
      cases answer with
      | error message => trivial
      | ok value => cases value <;> exact fact
  | sendMessage topic data => exact fact
  | getQueueAttributes queueUrl => trivial
  | emit event => trivial

variable {entries : List (Entry Call.Answer)}

/-- An address with which the service has answered is that of the queue. -/
theorem Answered.addresses {queueName queueUrl : String}
    (facts : Sharing.Facts (Fact producer service) entries session)
    (answered : Answered entries queueName queueUrl) (given : queueUrl ≠ "") :
    service.addresses queueName queueUrl := by
  rcases answered with located | ⟨input, rfl, created⟩
  · obtain ⟨front, -, fact⟩ := facts.mem located
    exact fact given
  · obtain ⟨front, -, fact⟩ := facts.mem created
    exact fact given

/-- The stored addresses stay addresses of queues. -/
theorem book_serve (book : Book service producer.registry session.sqsUrls)
    (facts : Sharing.Facts (Fact producer service) entries session) (choice : χ) {call : Call}
    (asked : Justified producer entries call) :
    Book service producer.registry
      (Action.exec (serve service choice call) session).2.sqsUrls := by
  rw [sqsUrls_serve]
  cases call with
  | store queueName queueUrl =>
      obtain ⟨named, given, answered⟩ := asked
      intro key url same
      dsimp only at same
      rw [storeUrl] at same
      split at same
      · exact book key url same
      · rw [Dictionary.get_set] at same
        split at same
        · rename_i equal
          obtain rfl := Option.some.inj same
          exact equal ▸ ⟨given, answered.addresses facts given, named⟩
        · exact book key url same
  | _ => exact book

/-- An answer tells its fact. -/
theorem fact_told (book : Book service producer.registry session.sqsUrls)
    (facts : Sharing.Facts (Fact producer service) entries session) (choice : χ) {call : Call}
    (asked : Justified producer entries call) :
    Fact producer service entries
      ⟨call, (Action.exec (serve service choice call) session).1⟩
      (Action.exec (serve service choice call) session).2 := by
  cases call with
  | sqsUrls =>
      refine ⟨book, fun key there => there, fun key plain found => ?_,
        fun key ordinary stored => ?_⟩
      · obtain ⟨sqsUrls, read, there⟩ := found
        obtain ⟨front, -, -, kept, -⟩ := facts.mem read
        exact kept key (Dictionary.isSome_of_truthy plain there)
      · obtain ⟨queueUrl, stored⟩ := stored
        obtain ⟨front, -, fact⟩ := facts.mem stored
        exact fact ordinary
  | store queueName queueUrl =>
      intro ordinary
      rw [sqsUrls_serve]
      dsimp only
      rw [get_storeUrl queueUrl ordinary]
      rfl
  | getQueueUrl queueName =>
      have same : (Action.exec (serve service choice (.getQueueUrl queueName)) session).1 =
        (Action.exec (service.getQueueUrl choice queueName) session.service).1 := rfl
      rw [same]
      cases answered : (Action.exec (service.getQueueUrl choice queueName) session.service).1 with
      | error message => trivial
      | ok value =>
          cases value with
          | none => trivial
          | some url => exact service.located choice queueName session.service url answered
  | createQueue input =>
      have same : (Action.exec (serve service choice (.createQueue input)) session).1 =
        (Action.exec (service.createQueue choice input) session.service).1 := rfl
      rw [same]
      cases answered : (Action.exec (service.createQueue choice input) session.service).1 with
      | error message => trivial
      | ok value =>
          cases value with
          | none => trivial
          | some url => exact service.created choice input session.service url answered
  | sendMessage topic data => exact asked
  | getQueueAttributes queueUrl => trivial
  | emit event => trivial

end Truth

/-- All sends of a producer start at once; each goes on when it is answered. -/
def begin (messages : List Message) (session : SqsSession σ) :
    Sharing Call.Answer Unit (SqsSession σ) where
  state := session
  mappings := [.begin 0 (messages.map (send producer))]

/-- The sends of a producer and the service. -/
def system : System (Sharing Call.Answer Unit (SqsSession σ)) (Sharing.Event χ) :=
  Sharing.system (serve service) Unit

section Runs

variable {producer service} {messages : List Message} {state : σ}
  {events : List (Sharing.Event χ)} {final : Sharing Call.Answer Unit (SqsSession σ)}

theorem knowing_run (execution : (system service).run events
      (begin producer messages ⟨state, .empty⟩) = some final) :
    final.Knowing (fun session => Book service producer.registry session.sqsUrls)
      (Sharing.Facts (Fact producer service)) (Justified producer) := by
  refine Sharing.knowing_run (Sharing.truthful_of_facts ?_ ?_ ?_) ?_ execution
  · exact fun choice call session entries book facts asked => book_serve book facts choice asked
  · exact fun choice call session entries book facts asked => fact_told book facts choice asked
  · exact fun choice call session entries book facts asked front entry fact =>
      fact.stays choice call
  · refine Sharing.knowing_fresh (fun key url same => by cases same) (Sharing.facts_nil _)
      fun mapping member => ?_
    obtain rfl := List.mem_singleton.mp member
    refine ⟨0, _, rfl, fun program listed => ?_⟩
    obtain ⟨message, -, rfl⟩ := List.mem_map.mp listed
    exact send_asks message

theorem endsWith_append (text suffix : String) : (text ++ suffix).endsWith suffix = true := by
  rw [← String.endsWith_toSlice, String.Slice.endsWith_string_iff, String.copy_toSlice,
    String.toList_append]
  exact List.suffix_append _ _

/-- The name of a queue is not that of a topic whose queue gets a suffix. -/
theorem fifo_of_queueName {registry : Registry η} {topic other : String}
    (once : topic.endsWith ".fifo" = true → registry.fifo topic = false)
    (named : topic = SqsProducer.queueName registry other) : registry.fifo topic = false := by
  by_contra treated
  have plain : topic.endsWith ".fifo" ≠ true := fun ends => treated (once ends)
  rw [SqsProducer.queueName] at named
  split at named
  · split at named
    · rename_i ends
      exact plain (named ▸ ends)
    · exact plain (named ▸ endsWith_append other ".fifo")
  · rename_i standard
    subst named
    refine standard ?_
    rw [SqsProducer.fifo, Bool.eq_true_of_not_eq_false treated, Bool.or_true]

/-- However the sends of a producer interleave, a message goes only to the queue of its topic, and
always if the topic names one queue and is no name that every object inherits. -/
theorem sends_addressed (execution : (system service).run events
      (begin producer messages ⟨state, .empty⟩) = some final)
    {mapping : Mapping Call.Answer Unit} (present : mapping ∈ final.mappings)
    {item : Item Call.Answer Unit} (own : item ∈ mapping.items) {topic : String}
    {data : SendMessageCommandInput} {answer : Except String Unit}
    (sent : (⟨.sendMessage topic data, answer⟩ : Entry Call.Answer) ∈ item.log) :
    (∀ url, data.queueUrl = some (.own url) →
      service.addresses (sqsTopic producer.registry topic) url) ∧
      ((topic.endsWith ".fifo" = true → producer.registry.fifo topic = false) →
        topic ∉ OBJECT_PROTOTYPE → ∃ url, data.queueUrl = some (.own url)) := by
  have facts := (knowing_run execution).known mapping present item own
  obtain ⟨before, ⟨back, rest⟩, front, sqsUrls, rfl, ready, queueUrl⟩ := facts.mem sent
  have read : front ++ [⟨.sqsUrls, .ok sqsUrls⟩] <+: item.log := ⟨back, rest⟩
  obtain ⟨book, -, found, stored⟩ := facts front _ read
  refine ⟨fun url same => ?_, fun once plain => ?_⟩
  · exact (book _ url (Dictionary.property_eq_own.mp (queueUrl.symm.trans same))).2.1
  · simp only [queueUrl, Dictionary.property_eq_own]
    refine Option.isSome_iff_exists.mp ?_
    rcases ready with known | kept
    · have there := found topic plain known
      obtain ⟨url, same⟩ := Option.isSome_iff_exists.mp there
      obtain ⟨-, -, other, named⟩ := book topic url same
      rw [sqsTopic, fifo_of_queueName once named]
      exact there
    · have name : SqsProducer.queueName producer.registry topic =
        sqsTopic producer.registry topic := SqsProducer.queueName_eq once
      rw [← name]
      refine stored _ ?_ kept
      rw [name, sqsTopic]
      split
      · exact append_fifo_ne topic "__proto__" (by decide)
      · rintro rfl
        exact plain (by decide)

end Runs

/-! ## Two sends at the same time -/

/-- A service with one queue. -/
def oneQueue : Service Unit Unit where
  getQueueUrl _ _ := pure (some "/queue")
  createQueue _ _ := pure (some "/queue")
  getQueueAttributes _ _ := pure none
  sendMessage _ _ := pure ()
  emit _ _ := pure ()
  addresses _ url := url = "/queue"
  located _ _ _ _ answered _ := (Option.some.inj (Except.ok.inj answered)).symm
  created _ _ _ _ answered _ := (Option.some.inj (Except.ok.inj answered)).symm

/-- A producer without tasks. -/
def taskless : Producer Unit := ⟨Registry.empty, ⟨none, none⟩, fun _ => ""⟩

/-- Two messages of a topic. -/
def twoOrders : List Message :=
  List.replicate 2 ⟨"orders", some (.obj []), [], ⟨"host", 0, (0, 0), 0, fun _ => ""⟩⟩

/-- Both sends look for the queue before one of them has stored its address. -/
def sideBySide : List (Sharing.Event Unit) :=
  (List.replicate 6 [.answer 0 0 (), .answer 0 1 ()]).flatten

theorem sideBySide_addressed : ∃ final,
    (system oneQueue).run sideBySide (begin taskless twoOrders ⟨(), .empty⟩) = some final ∧
      final.mappings.flatMap (fun mapping => mapping.items.map fun item => item.log.length) =
        [6, 6] ∧
      ∀ mapping ∈ final.mappings, ∀ item ∈ mapping.items, ∀ data answer,
        (⟨.sendMessage "orders" data, answer⟩ : Entry Call.Answer) ∈ item.log →
          data.queueUrl = some (.own "/queue") := by
  obtain ⟨final, execution, lengths⟩ : ∃ final,
      (system oneQueue).run sideBySide (begin taskless twoOrders ⟨(), .empty⟩) = some final ∧
        final.mappings.flatMap (fun mapping => mapping.items.map fun item => item.log.length) =
          [6, 6] := ⟨_, rfl, rfl⟩
  refine ⟨final, execution, lengths, fun mapping present item own data answer sent => ?_⟩
  obtain ⟨addressed, named⟩ := sends_addressed execution present own sent
  obtain ⟨url, same⟩ := named (fun _ => rfl) (by decide)
  rw [same, addressed url same]

end SharedAddresses

end Steveo
