import Steveo.Messaging.Queues

/-!
# Sending through middleware

This file models the `send` of each producer, with the events that it emits, for layers of
middleware that call `next` once at most.  A layer may throw before it calls `next`, and it decides
how to settle once `next` has.
-/

namespace Steveo

open Steveo.Action

/-! ## Layers -/

/-- What the layers of a call share. -/
structure MiddlewareContext where
  topic : String
  /-- The value that is sent; `none` is undefined. -/
  payload : Option Json
  /-- The value that the caller has passed. -/
  argument : Option Json
  /-- Whether the value that is sent is still the object of the caller, and not a copy. -/
  shared : Bool
  /-- The serialised headers of a transaction, if a layer has put one into the context. -/
  transaction : Option String

/-- The context with which a producer or a runner starts. -/
def MiddlewareContext.fresh (topic : String) (payload : Option Json) : MiddlewareContext :=
  ⟨topic, payload, payload, true, none⟩

/-- A layer that calls `next` once, unless it throws before. -/
structure Layer where
  before : MiddlewareContext → Except String MiddlewareContext
  /-- How the layer settles when `next` has settled. -/
  after : Except String Unit → Except String Unit

/-- An event for the listeners of a producer. -/
inductive ProducerEvent
  | producer_success (topic : String)
  | producer_failure (topic error : String)
  deriving DecidableEq

/-- The body of a message: a text, or an object that is serialised. -/
inductive Body
  | text (text : String)
  | object (fields : Fields)

/-- A session of a producer in the course of a call. -/
structure Sending (σ : Type) where
  session : SqsSession σ
  context : MiddlewareContext
  /-- The bodies with which the client has been called. -/
  sent : List Body
  events : List ProducerEvent

variable {σ η : Type}

namespace Sending

/-- Work on the session. -/
def onSession {α : Type} (action : Action (SqsSession σ) α) : Action (Sending σ) α :=
  ExceptT.mk fun sending =>
    let answer := exec action sending.session
    (answer.1, { sending with session := answer.2 })

/-- Replace the context. -/
def enter (context : MiddlewareContext) : Action (Sending σ) Unit :=
  modify fun sending => { sending with context }

/-- Call the client with a body. -/
def give {α : Type} (body : Body) (action : Action σ α) : Action (Sending σ) α := do
  modify fun sending => { sending with sent := sending.sent ++ [body] }
  onSession (SqsSession.call action)

/-- Notify the listeners. -/
def emit (event : ProducerEvent) : Action (Sending σ) Unit :=
  modify fun sending => { sending with events := sending.events ++ [event] }

end Sending

open Sending

/-- Run a callback inside the layers. -/
def composePublish : List Layer → Action (Sending σ) Unit → Action (Sending σ) Unit
  | [], next => next
  | layer :: layers, next => do
      let context ← ofExcept (layer.before (← get).context)
      enter context
      let outcome ← attempt (composePublish layers next)
      ofExcept (layer.after outcome)

/-- Report an error and pass it on. -/
def reportFailure (topic : String) (action : Action (Sending σ) Unit) :
    Action (Sending σ) Unit := do
  match ← attempt action with
  | .ok _ => pure ()
  | .error ex =>
      emit (.producer_failure topic ex)
      throw ex

/-- Wrap the sending of a payload to a topic into the layers. -/
def wrap (layers : List Layer) (topic : String) (payload : Option Json)
    (callback : Action (Sending σ) Unit) : Action (Sending σ) Unit := do
  enter (.fresh topic payload)
  composePublish layers callback

/-! ## The producers -/

/-- The properties of a message; metadata can only be read from a value that is an object or can be
converted to one. -/
def messageFields : Option Json → Except String Fields
  | none => .error "TypeError: Cannot read properties of undefined (reading '_meta')"
  | some .null => .error "TypeError: Cannot read properties of null (reading '_meta')"
  | some value => .ok (ownFields (some value))

namespace KafkaProducer

/-- The data for a payload. -/
def encode (origin : Origin) (payload : Option Json) (options : Fields) : Except String Body :=
  match payload with
  | some (.str text) => .ok (.text text)
  | payload => (messageFields payload).map fun fields =>
      .object (KafkaProducer.getPayload origin fields options)

/-- The call of the Kafka client: it throws, or it reports an error or none to its callback. -/
abbrev Produce (σ : Type) : Type := String → Body → Option Json → Action σ (Option String)

/-- Produce a message; the callback of the client emits an event and settles the promise. -/
def publish (produce : Produce σ) (topic : String) (data : Body) (key : Option Json) :
    Action (Sending σ) Unit := do
  match ← give data (produce topic data key) with
  | some err =>
      emit (.producer_failure topic err)
      throw "undefined"
  | none => emit (.producer_success topic)

/-- What the layers of a Kafka producer wrap. -/
def callback (produce : Produce σ) (origin : Origin) (topic : String) (options : Fields) :
    Action (Sending σ) Unit := do
  let c := (← get).context
  let data ← ofExcept (encode origin c.payload options)
  publish produce c.topic data (options.get "key")
  emit (.producer_success topic)

/-- Send a payload. -/
def send (produce : Produce σ) (layers : List Layer) (origin : Origin) (topic : String)
    (payload : Option Json) (options : Fields) : Action (Sending σ) Unit :=
  reportFailure topic (wrap layers topic payload (callback produce origin topic options))

end KafkaProducer

namespace SqsProducer

/-- The service and its client, and what the producer reads besides. -/
structure Setting (σ η : Type) where
  registry : Registry η
  config : SqsConfiguration
  client : SqsClient σ
  sendMessage : SendMessageCommandInput → Action σ Unit
  /-- The string for a value. -/
  print : Json → String

/-- Send the payload of the context to its topic. -/
def deliver (setting : Setting σ η) (origin : Origin) (options : Fields) :
    Action (Sending σ) Unit := do
  let sending ← get
  let c := sending.context
  runIf (!Property.truthy (sending.session.sqsUrls.property c.topic)) (do
    let _ ← onSession (initializeTopic setting.registry setting.config setting.client c.topic))
  let fields ← ofExcept (messageFields c.payload)
  let sending ← get
  let data ← ofExcept (getPayload setting.registry sending.session.sqsUrls setting.print origin
    fields c.topic options)
  give (.object data.messageBody) (setting.sendMessage data)

/-- What the layers of an SQS producer wrap. -/
def callback (setting : Setting σ η) (origin : Origin) (options : Fields) :
    Action (Sending σ) Unit := do
  deliver setting origin options
  emit (.producer_success (← get).context.topic)

/-- Send a payload. -/
def send (setting : Setting σ η) (layers : List Layer) (origin : Origin) (topic : String)
    (payload : Option Json) (options : Fields) : Action (Sending σ) Unit :=
  reportFailure topic (wrap layers topic payload (callback setting origin options))

end SqsProducer

namespace RedisProducer

/-- The calls of the Redis client. -/
structure Client (σ : Type) where
  sendMessage : String × Fields → Action σ Unit
  getQueueAttributes : String → Action σ Unit

/-- Send the payload of the context to its topic. -/
def deliver (client : Client σ) (origin : Origin) : Action (Sending σ) Unit := do
  let c := (← get).context
  let fields ← ofExcept (messageFields c.payload)
  let message := getPayload origin fields c.topic
  give (.object message.2) (client.sendMessage message)
  onSession (SqsSession.call (client.getQueueAttributes c.topic))

/-- What the layers of a Redis producer wrap. -/
def callback (client : Client σ) (origin : Origin) (topic : String) : Action (Sending σ) Unit := do
  deliver client origin
  emit (.producer_success topic)

/-- Send a payload. -/
def send (client : Client σ) (layers : List Layer) (origin : Origin) (topic : String)
    (payload : Option Json) : Action (Sending σ) Unit :=
  reportFailure topic (wrap layers topic payload (callback client origin topic))

end RedisProducer

namespace DummyProducer

/-- What the layers of a dummy producer wrap. -/
def callback (origin : Origin) : Action (Sending σ) Unit := do
  let c := (← get).context
  let fields ← ofExcept (messageFields c.payload)
  let _data := RedisProducer.getPayload origin fields c.topic
  pure ()

/-- Send a payload; the event is emitted outside the layers. -/
def send (layers : List Layer) (origin : Origin) (topic : String) (payload : Option Json) :
    Action (Sending σ) Unit :=
  reportFailure topic (do
    wrap layers topic payload (callback origin)
    emit (.producer_success topic))

end DummyProducer

end Steveo
