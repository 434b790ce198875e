import Mathlib.Algebra.Ring.Rat
import Steveo.Messaging.Producer
import Steveo.Messaging.Subscription

/-!
# From a published payload to the callback

A payload and its routing options travel in one message body.  This file follows them through the
encoder of a producer and the decoder of a runner to the arguments of the registered callback.
-/

namespace Steveo

open Steveo.Action Runner

/-- What a producer works with. -/
structure Producer where
  registry : Registry Unit
  /-- Known queues by topic. -/
  sqsUrls : Dictionary String String
  /-- The string for a value. -/
  print : Json → String

namespace MessageEngine

/-- The body in which the producer of an engine sends a payload with routing options. -/
def published (engine : MessageEngine) (producer : Producer) (origin : Origin) (topic : String)
    (payload options : Fields) : Except String Fields :=
  match engine with
  | .sqs =>
      (SqsProducer.getPayload producer.registry producer.sqsUrls producer.print origin payload
        topic options).map SqsProducer.SendMessageCommandInput.messageBody
  | .kafka => .ok (KafkaProducer.getPayload origin payload options)
  | .redis => .ok (RedisProducer.getPayload origin payload topic).2

/-- An argument has every property of the options with its value, and the metadata wherever the
options do not replace it. -/
structure Describes (options metadata : Fields) (argument : Argument) : Prop where
  routed : ∀ key value, options.get key = some value → argument.Has key value
  described : ∀ key value, metadata.get key = some value → options.get key = none →
    argument.Has key value

/-- The callback's first argument has every property of the payload with its value, and its second
argument describes the message. -/
structure Carries (payload options metadata data : Fields) (argument : Argument) : Prop where
  kept : ∀ key value, payload.get key = some value → data.get key = some value
  describes : Describes options metadata argument

/-- A payload and routing options reach the registered callback, whatever the two processes and
the queue, as long as the runner serves. -/
def Survives (engine : MessageEngine) (payload options : Fields) : Prop :=
  ∀ {σ : Type} (producer : Producer) (origin : Origin) (runner : Runner σ) (receipt : Receipt)
    (topic : String) (task : RegistryElem (Callback σ)) (tasks : σ),
    runner.Serves → runner.registry.getTask topic = some (.own task) →
    ∃ body, engine.published producer origin topic payload options = .ok body ∧
      ∃ data argument, RunnerCall.subscribe task.name data argument ∈
          (exec (engine.receive runner receipt topic body) (.start tasks)).2.calls ∧
        Carries payload options (createMessageMetadata origin payload) data argument

/-- The timestamp among the options, if there is one, has a `toString` method that returns. -/
def Stamped (options : Fields) : Prop :=
  ∀ timestamp, options.get "timestamp" = some timestamp →
    timestamp ≠ .null ∧ timestamp.printable = true

/-- The start time among the options, if there is one, is falsy or converts to a number; and a
duration among them is the zero that is computed for a falsy start time. -/
structure Timed (options : Fields) : Prop where
  started : ∀ startMs, options.get "startMs" = some startMs → truthy (some startMs) = true →
    startMs.printable = true
  duration : ∀ duration, options.get "duration" = some duration →
    duration = .num 0 ∧ ∃ startMs, options.get "startMs" = some startMs ∧
      truthy (some startMs) = false

/-- The condition under which an engine carries a payload and routing options. -/
def Clear : MessageEngine → Fields → Fields → Prop
  | .sqs, _, options => Stamped options ∧ Timed options
  | .kafka, payload, options => payload.get "value" = none ∧ Timed options
  | .redis, _, _ => False

/-! ## Both sides of the queue together -/

/-- A task that does nothing. -/
def idleTask (topic : String) : RegistryElem (Callback Unit) where
  name := "task"
  topic := topic
  subscribe := fun _ _ => pure ()

/-- Surviving is about what the producer publishes and what the runner presents. -/
theorem survives_iff_presented (engine : MessageEngine) (payload options : Fields) :
    engine.Survives payload options ↔
      ∀ (producer : Producer) (origin : Origin) (arrival : Arrival) (topic : String),
        ∃ body, engine.published producer origin topic payload options = .ok body ∧
          ∃ data argument, engine.presented arrival body = .ok (data, argument) ∧
            Carries payload options (createMessageMetadata origin payload) data argument := by
  constructor
  · intro survives producer origin arrival topic
    let registry : Registry (Callback Unit) := Registry.empty.addNewTask (idleTask topic)
    let runner : Runner Unit := { serving registry with arrival }
    have serves : runner.Serves := ⟨rfl, ⟨"1", rfl⟩, rfl⟩
    have registered : runner.registry.getTask topic = some (.own (idleTask topic)) :=
      Registry.getTask_addNewTask_self .empty (idleTask topic)
    obtain ⟨body, sent, data, argument, called, carries⟩ :=
      survives producer origin runner ⟨none, 0, 0, ""⟩ topic (idleTask topic) () serves registered
    refine ⟨body, sent, data, argument, ?_, carries⟩
    rw [← mem_subscriptions, receive_adds serves engine _ registered] at called
    change _ ∈ calledWith "task" (engine.presented arrival body) at called
    rcases result : engine.presented arrival body with thrown | arguments
    · rw [result] at called
      exact absurd called (List.not_mem_nil)
    · rw [result] at called
      obtain rfl : arguments = (data, argument) :=
        (congrArg Prod.snd (List.mem_singleton.mp called)).symm
      rfl
  · intro carried σ producer origin runner receipt topic task tasks serves registered
    obtain ⟨body, sent, data, argument, found, carries⟩ :=
      carried producer origin runner.arrival topic
    refine ⟨body, sent, data, argument, ?_, carries⟩
    rw [← mem_subscriptions, receive_adds serves engine receipt registered, found]
    exact List.mem_singleton_self _

/-! ## The metadata and the context -/

section Metadata

variable {payload options : Fields} (plain : payload.get "_meta" = none) (origin : Origin)

include plain

/-- The metadata of a payload that brings none of its own. -/
theorem createMessageMetadata_plain :
    createMessageMetadata origin payload =
      [("hostname", .str origin.hostname), ("timestamp", .num origin.timestamp),
        ("signature", .str (origin.sha1 (payload.without "_meta"))),
        ("start", .arr [.num origin.start.1, .num origin.start.2]),
        ("startMs", .num origin.startMs)] := by
  rw [createMessageMetadata, plain]
  rfl

theorem get_metadata_hostname :
    (createMessageMetadata origin payload).get "hostname" = some (.str origin.hostname) := by
  rw [createMessageMetadata_plain plain]
  rfl

theorem get_metadata_timestamp :
    (createMessageMetadata origin payload).get "timestamp" = some (.num origin.timestamp) := by
  rw [createMessageMetadata_plain plain]
  rfl

theorem get_metadata_startMs :
    (createMessageMetadata origin payload).get "startMs" = some (.num origin.startMs) := by
  rw [createMessageMetadata_plain plain]
  rfl

theorem get_metadata_duration : (createMessageMetadata origin payload).get "duration" = none := by
  rw [createMessageMetadata_plain plain]
  rfl

/-- The context of metadata that the options extend describes the message unless a duration among
the options differs from the computed one. -/
theorem describes_context_iff (duration : Option ℚ) :
    Describes options (createMessageMetadata origin payload)
        (.context ⟨(createMessageMetadata origin payload).spread options, duration⟩) ↔
      ∀ value, options.get "duration" = some value → duration.map Json.num = some value := by
  constructor
  · intro describes value routed
    exact describes.routed "duration" value routed
  · intro computed
    constructor
    · intro key value routed
      by_cases timing : key = "duration"
      · subst timing
        exact computed value routed
      · simp [Argument.Has, timing, routed]
    · intro key value described free
      have timing : key ≠ "duration" := by
        rintro rfl
        rw [get_metadata_duration plain] at described
        contradiction
      simp [Argument.Has, timing, described, free]

end Metadata

/-- The body of a message whose metadata the options extend. -/
def envelope (origin : Origin) (payload options : Fields) : Fields :=
  messageBody payload ((createMessageMetadata origin payload).spread options)

/-- The start time with which a message travels. -/
def startedAt (origin : Origin) (options : Fields) : Json :=
  (options.get "startMs").getD (.num origin.startMs)

theorem getContext_published {payload : Fields} (plain : payload.get "_meta" = none)
    (origin : Origin) (arrival : Arrival) (options : Fields) :
    getContext arrival (.obj (envelope origin payload options)) =
      if truthy (some (startedAt origin options)) then
        (getDuration arrival (startedAt origin options)).map fun duration =>
          ⟨(createMessageMetadata origin payload).spread options, duration⟩
      else
        .ok ⟨(createMessageMetadata origin payload).spread options, some 0⟩ := by
  have started : ((createMessageMetadata origin payload).spread options).get "startMs" =
      some (startedAt origin options) := by
    rw [Fields.get_spread, get_metadata_startMs plain, startedAt]
    cases options.get "startMs" <;> rfl
  simp only [getContext, envelope, Json.get_obj, get_messageBody_meta, Option.bind_some,
    ownFields, started]

/-- A process with a clock that shows one millisecond. -/
def ticking : Origin := ⟨"host", 0, (0, 0), 1, fun _ => ""⟩

/-- A process whose clock shows a given time. -/
def arrivingAt (now : ℚ) : Arrival := ⟨now, fun _ => none, fun _ => ""⟩

/-- No duration that is computed from a clock is the same at all times. -/
theorem duration_varies (startMs value : Json)
    (constant : ∀ now : ℚ, (((arrivingAt now).toNumber startMs).map fun started =>
      now - started).map Json.num = some value) : False := by
  have early := constant 0
  have late := constant 1
  have same : (arrivingAt 0).toNumber startMs = (arrivingAt 1).toNumber startMs := rfl
  rw [← same] at late
  rcases converted : (arrivingAt 0).toNumber startMs with _ | started
  · rw [converted] at early
    contradiction
  · rw [converted] at early late
    have equal : (0 : ℚ) - started = 1 - started :=
      Json.num.inj (Option.some.inj (early.trans late.symm))
    rw [sub_left_inj] at equal
    exact absurd equal (by decide)

/-- Timed options are described by the context. -/
theorem Timed.describes {payload options : Fields} (timed : Timed options)
    (plain : payload.get "_meta" = none) (origin : Origin) (arrival : Arrival) :
    ∃ found, getContext arrival (.obj (envelope origin payload options)) = .ok found ∧
      Describes options (createMessageMetadata origin payload) (.context found) := by
  rw [getContext_published plain]
  cases isStarted : truthy (some (startedAt origin options)) with
  | false =>
      refine ⟨_, rfl, (describes_context_iff plain origin _).mpr ?_⟩
      intro value routed
      obtain ⟨rfl, -⟩ := timed.duration value routed
      rfl
  | true =>
      have printable : (startedAt origin options).printable = true := by
        rcases routed : options.get "startMs" with _ | startMs
        · simp [startedAt, routed, Json.printable]
        · rw [startedAt, routed] at isStarted ⊢
          exact timed.started startMs routed isStarted
      rw [getDuration, printable]
      refine ⟨_, rfl, (describes_context_iff plain origin _).mpr ?_⟩
      intro value routed
      obtain ⟨-, startMs, given, falsy⟩ := timed.duration value routed
      rw [startedAt, given, Option.getD_some, falsy] at isStarted
      contradiction

/-- Where a duration that the sender has given arrives at all times, no time is measured. -/
theorem unmeasured_of_describes {payload options : Fields} (plain : payload.get "_meta" = none)
    {origin : Origin} {value : Json} (routed : options.get "duration" = some value)
    (described : ∀ arrival : Arrival, ∃ found,
      getContext arrival (.obj (envelope origin payload options)) = .ok found ∧
      Describes options (createMessageMetadata origin payload) (.context found)) :
    truthy (some (startedAt origin options)) = false := by
  cases isStarted : truthy (some (startedAt origin options)) with
  | false => rfl
  | true =>
      refine (duration_varies (startedAt origin options) value fun now => ?_).elim
      obtain ⟨found, context, describes⟩ := described (arrivingAt now)
      rw [getContext_published plain, isStarted, getDuration] at context
      cases printable : (startedAt origin options).printable with
      | false =>
          rw [printable] at context
          contradiction
      | true =>
          rw [printable] at context
          obtain rfl := Except.ok.inj context
          exact (describes_context_iff plain origin _).mp describes value routed

/-- The context describes the message, whatever the clocks, exactly for timed options. -/
theorem timed_iff {payload : Fields} (plain : payload.get "_meta" = none) (options : Fields) :
    Timed options ↔ ∀ (origin : Origin) (arrival : Arrival), ∃ found,
      getContext arrival (.obj (envelope origin payload options)) = .ok found ∧
      Describes options (createMessageMetadata origin payload) (.context found) := by
  constructor
  · exact fun timed origin arrival => timed.describes plain origin arrival
  · intro described
    constructor
    · intro startMs routed isStarted
      obtain ⟨found, context, -⟩ := described ticking (arrivingAt 0)
      have given : startedAt ticking options = startMs := by rw [startedAt, routed]; rfl
      rw [getContext_published plain, given, isStarted, getDuration] at context
      cases printable : startMs.printable with
      | true => rfl
      | false =>
          rw [printable] at context
          contradiction
    · intro value routed
      have falsy := unmeasured_of_describes plain routed (described ticking)
      obtain ⟨found, context, describes⟩ := described ticking (arrivingAt 0)
      rw [getContext_published plain, falsy] at context
      obtain rfl := Except.ok.inj context
      have zero := (describes_context_iff plain ticking _).mp describes value routed
      refine ⟨(Option.some.inj zero).symm, ?_⟩
      rcases given : options.get "startMs" with _ | startMs
      · rw [startedAt, given] at falsy
        contradiction
      · rw [startedAt, given] at falsy
        exact ⟨startMs, rfl, falsy⟩

/-! ## The three engines -/

/-- A producer without registered tasks and known queues. -/
def Producer.empty : Producer := ⟨.empty, .empty, fun _ => ""⟩

/-- The body that an SQS message carries if producing it returns. -/
theorem sqs_published {producer : Producer} {origin : Origin} {topic : String}
    {payload options body : Fields}
    (sent : MessageEngine.sqs.published producer origin topic payload options = .ok body) :
    body = envelope origin payload options := by
  have produced := (SqsProducer.getPayload_body _ _ _ _ _ _ _).symm.trans sent
  rcases printed : SqsProducer.callToString producer.print
    (((createMessageMetadata origin payload).spread options).get "timestamp") with _ | text
  · rw [printed] at produced
    contradiction
  · rw [printed] at produced
    exact (Except.ok.inj produced).symm

/-- Producing an SQS message returns exactly for stamped options. -/
theorem stamped_iff {payload : Fields} (plain : payload.get "_meta" = none) (options : Fields) :
    Stamped options ↔ ∀ (producer : Producer) (origin : Origin) (topic : String),
      ∃ body, MessageEngine.sqs.published producer origin topic payload options = .ok body := by
  have stamped : ∀ origin : Origin,
      ((createMessageMetadata origin payload).spread options).get "timestamp" =
        some ((options.get "timestamp").getD (.num origin.timestamp)) := by
    intro origin
    rw [Fields.get_spread, get_metadata_timestamp plain]
    cases options.get "timestamp" <;> rfl
  constructor
  · intro given producer origin topic
    obtain ⟨text, printed⟩ := (SqsProducer.callToString_iff producer.print
      ((options.get "timestamp").getD (.num origin.timestamp))).mpr (by
        rcases routed : options.get "timestamp" with _ | timestamp
        · exact ⟨by simp, rfl⟩
        · exact given timestamp routed)
    refine ⟨envelope origin payload options,
      (SqsProducer.getPayload_body _ _ _ _ _ _ _).trans ?_⟩
    rw [stamped, printed]
    rfl
  · intro sent timestamp routed
    obtain ⟨body, returned⟩ := sent Producer.empty ticking ""
    have produced := (SqsProducer.getPayload_body _ _ _ _ _ _ _).symm.trans returned
    rw [stamped, routed, Option.getD_some] at produced
    apply (SqsProducer.callToString_iff Producer.empty.print timestamp).mp
    rcases printed : SqsProducer.callToString Producer.empty.print (some timestamp) with _ | text
    · rw [printed] at produced
      contradiction
    · exact ⟨text, rfl⟩

/-- The rest of a published body is the payload. -/
theorem get_data {payload metadata : Fields} (plain : payload.get "_meta" = none) (key : String) :
    ((messageBody payload metadata).without "_meta").get key = payload.get key := by
  rw [Fields.get_without]
  split
  · rename_i envelope
    rw [envelope, plain]
  · rename_i other
    exact get_messageBody_of_ne payload metadata other

theorem sqs_survives_iff {payload : Fields} (plain : payload.get "_meta" = none)
    (options : Fields) :
    MessageEngine.sqs.Survives payload options ↔ Stamped options ∧ Timed options := by
  rw [survives_iff_presented]
  constructor
  · intro survives
    constructor
    · rw [stamped_iff plain]
      intro producer origin topic
      obtain ⟨body, sent, -⟩ := survives producer origin (arrivingAt 0) topic
      exact ⟨body, sent⟩
    · rw [timed_iff plain]
      intro origin arrival
      obtain ⟨body, sent, data, argument, presented, carries⟩ :=
        survives Producer.empty origin arrival ""
      obtain rfl := sqs_published sent
      rw [MessageEngine.presented] at presented
      rcases context : getContext arrival (.obj (envelope origin payload options)) with _ | found
      · rw [context] at presented
        contradiction
      · rw [context] at presented
        obtain ⟨-, rfl⟩ := Prod.mk.inj (Except.ok.inj presented)
        exact ⟨found, rfl, carries.describes⟩
  · rintro ⟨stamped, timed⟩ producer origin arrival topic
    obtain ⟨body, sent⟩ := (stamped_iff plain options).mp stamped producer origin topic
    obtain rfl := sqs_published sent
    obtain ⟨found, context, describes⟩ := (timed_iff plain options).mp timed origin arrival
    refine ⟨_, sent, (envelope origin payload options).without "_meta", .context found, ?_, ?_,
      describes⟩
    · rw [MessageEngine.presented, context]
      rfl
    · intro key value kept
      rw [envelope, get_data plain, kept]

/-- A payload with a property `value` loses it to the payload that the Kafka runner puts there. -/
theorem kafka_data_value {payload metadata : Fields} (plain : payload.get "_meta" = none) :
    (∀ key value, payload.get key = some value →
      (((messageBody payload metadata).without "_meta").spread
        [("value", .obj ((messageBody payload metadata).without "_meta"))]).get key = some value) ↔
      payload.get "value" = none := by
  constructor
  · intro kept
    rcases given : payload.get "value" with _ | value
    · rfl
    · have replaced := kept "value" value given
      rw [Fields.get_spread, Fields.get_cons, if_pos rfl, Option.some_or] at replaced
      obtain rfl := Option.some.inj replaced
      rw [← get_data plain] at given
      exact absurd (Fields.sizeOf_get given) (lt_irrefl _)
  · intro free key value kept
    have other : key ≠ "value" := by
      rintro rfl
      rw [free] at kept
      contradiction
    rw [Fields.get_spread, Fields.get_cons, if_neg other, Fields.get_nil, Option.none_or,
      get_data plain, kept]

theorem kafka_survives_iff {payload : Fields} (plain : payload.get "_meta" = none)
    (options : Fields) :
    MessageEngine.kafka.Survives payload options ↔
      payload.get "value" = none ∧ Timed options := by
  rw [survives_iff_presented]
  constructor
  · intro survives
    have arrives : ∀ origin arrival, ∃ found,
        getContext arrival (.obj (envelope origin payload options)) = .ok found ∧
        Describes options (createMessageMetadata origin payload) (.context found) ∧
        payload.get "value" = none := by
      intro origin arrival
      obtain ⟨body, sent, data, argument, presented, carries⟩ :=
        survives Producer.empty origin arrival ""
      obtain rfl := Except.ok.inj sent
      change MessageEngine.kafka.presented arrival (envelope origin payload options) = _
        at presented
      rw [MessageEngine.presented] at presented
      rcases context : getContext arrival (.obj (envelope origin payload options)) with _ | found
      · rw [context] at presented
        contradiction
      · rw [context] at presented
        obtain ⟨rfl, rfl⟩ := Prod.mk.inj (Except.ok.inj presented)
        exact ⟨found, rfl, carries.describes, (kafka_data_value plain).mp carries.kept⟩
    constructor
    · obtain ⟨-, -, -, free⟩ := arrives ticking (arrivingAt 0)
      exact free
    · rw [timed_iff plain]
      intro origin arrival
      obtain ⟨found, context, describes, -⟩ := arrives origin arrival
      exact ⟨found, context, describes⟩
  · rintro ⟨free, timed⟩ producer origin arrival topic
    obtain ⟨found, context, describes⟩ := (timed_iff plain options).mp timed origin arrival
    let data := (envelope origin payload options).without "_meta"
    have presented : MessageEngine.kafka.presented arrival (envelope origin payload options) =
        .ok (data.spread [("value", .obj data)], .context found) := by
      rw [MessageEngine.presented, context]
      rfl
    exact ⟨_, rfl, _, _, presented, (kafka_data_value plain).mpr free, describes⟩

/-- The Redis runner never hands the metadata to the task: a payload without a property `context`
comes with no context, and one with such a property loses it. -/
theorem redis_not_survives {payload : Fields} (plain : payload.get "_meta" = none)
    (options : Fields) : ¬ MessageEngine.redis.Survives payload options := by
  rw [survives_iff_presented]
  intro survives
  obtain ⟨body, sent, data, argument, presented, carries⟩ :=
    survives Producer.empty ticking (arrivingAt 0) ""
  obtain rfl := Except.ok.inj sent
  rw [MessageEngine.presented, RedisProducer.getPayload] at presented
  rcases context : getContext (arrivingAt 0) (.obj (messageBody payload
    (createMessageMetadata ticking payload))) with _ | found
  · rw [context] at presented
    contradiction
  · rw [context] at presented
    obtain ⟨rfl, rfl⟩ := Prod.mk.inj (Except.ok.inj presented)
    have same := get_messageBody_of_ne payload (createMessageMetadata ticking payload)
      (show "context" ≠ "_meta" by decide)
    rcases given : payload.get "context" with _ | value
    · have hidden := carries.describes
      rw [same, given] at hidden
      rcases routed : options.get "hostname" with _ | value
      · exact absurd (hidden.described _ _ (get_metadata_hostname plain ticking) routed)
          (by simp [Argument.Has, Json.get])
      · exact absurd (hidden.routed _ _ routed) (by simp [Argument.Has, Json.get])
    · have kept := carries.kept _ _ given
      rw [Fields.get_without, if_pos rfl] at kept
      contradiction

/-- Payload and context survive exactly where the engine carries them. -/
theorem survives_iff_clear (engine : MessageEngine) (payload options : Fields)
    (plain : payload.get "_meta" = none) :
    engine.Survives payload options ↔ engine.Clear payload options := by
  cases engine with
  | sqs => exact sqs_survives_iff plain options
  | kafka => exact kafka_survives_iff plain options
  | redis => exact iff_of_false (redis_not_survives plain options) id

theorem kafka_order_survives :
    MessageEngine.kafka.Survives [("order", .num 1)] [("key", .str "customer")] := by
  apply (survives_iff_clear .kafka [("order", .num 1)] [("key", .str "customer")] rfl).mpr
  refine ⟨rfl, ?_, ?_⟩
  · intro startMs routed
    contradiction
  · intro duration routed
    contradiction

/-- Not every payload survives: the Redis runner hands over no context. -/
theorem not_survives : ¬ ∀ (engine : MessageEngine) (payload options : Fields),
    payload.get "_meta" = none → engine.Survives payload options := by
  intro survives
  exact redis_not_survives rfl _
    (survives .redis [("order", .num 1)] [("key", .str "customer")] rfl)

end MessageEngine

end Steveo
