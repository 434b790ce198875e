import Steveo.Runtime.Context
import Steveo.Runtime.Registry

/-!
# Producers

This file models how the producers turn a payload into a message.  A body is written as the object
that it serialises, and no middleware is configured.
-/

namespace Steveo

/-- The object that a producer serialises. -/
def messageBody (payload metadata : Fields) : Fields :=
  payload.spread [("_meta", .obj metadata)]

namespace SqsProducer

/-- The input of the client's call that sends a message. -/
structure SendMessageCommandInput where
  /-- Data type and value of each attribute. -/
  messageAttributes : Dictionary String (String × String)
  messageBody : Fields
  /-- What the stored addresses have under the name of the queue. -/
  queueUrl : Option (Property String)
  messageGroupId : Option Json
  messageDeduplicationId : Option Json

/-- The result of `value.toString()`, rendered by the host language's conversion. -/
def callToString (print : Json → String) : Option Json → Except String String
  | none => .error "TypeError: Cannot read properties of undefined (reading 'toString')"
  | some .null => .error "TypeError: Cannot read properties of null (reading 'toString')"
  | some value =>
      if value.printable then .ok (print value) else .error "TypeError: toString is not a function"

/-- A property value in place of which `||` takes `undefined` when it is falsy. -/
def orUndefined (value : Option Json) : Option Json := if truthy value then value else none

/-- The attributes of a message. -/
def messageAttributes (timestamp : String) (attributes : List Attribute) :
    Dictionary String (String × String) :=
  attributes.foldl
    (fun messageAttributes custom =>
      messageAttributes.set custom.name
        (if custom.dataType = "" then "String" else custom.dataType, custom.value))
    (Dictionary.empty.set "Timestamp" ("Number", timestamp))

variable {η : Type}

/-- The message that the producer sends for a payload. -/
def getPayload (registry : Registry η) (sqsUrls : Dictionary String String)
    (print : Json → String) (origin : Origin) (msg : Fields) (topic : String) (options : Fields) :
    Except String SendMessageCommandInput := do
  let messageMetadata := (createMessageMetadata origin msg).spread options
  let task := registry.getTask topic
  let attributes := (task.map fun element => element.options.attributes).getD []
  let timestamp ← callToString print (messageMetadata.get "timestamp")
  let fifo := (task.bind fun element => element.options.fifo).getD false
  let sqsTopic := if fifo then topic ++ ".fifo" else topic
  pure
    { messageAttributes := messageAttributes timestamp attributes
      messageBody := messageBody msg messageMetadata
      queueUrl := sqsUrls.property sqsTopic
      messageGroupId := orUndefined (options.get "key")
      messageDeduplicationId :=
        if fifo then orUndefined (options.get "deDuplicationId") else none }

end SqsProducer

/-- The object that the Kafka producer sends for a payload that is not a string. -/
def KafkaProducer.getPayload (origin : Origin) (payload options : Fields) : Fields :=
  messageBody payload ((createMessageMetadata origin payload).spread options)

/-- The queue and the object that the Redis producer sends for a payload. -/
def RedisProducer.getPayload (origin : Origin) (msg : Fields) (topic : String) :
    String × Fields :=
  (topic, messageBody msg (createMessageMetadata origin msg))

section Specifications

@[simp] theorem get_messageBody_meta (payload metadata : Fields) :
    (messageBody payload metadata).get "_meta" = some (.obj metadata) := by
  simp [messageBody, Fields.get_cons]

theorem get_messageBody_of_ne (payload metadata : Fields) {key : String} (other : key ≠ "_meta") :
    (messageBody payload metadata).get key = payload.get key := by
  simp [messageBody, Fields.get_cons, other]

/-- The `toString` method of a value returns if the value is not `null` and can be printed. -/
theorem SqsProducer.callToString_iff (print : Json → String) (value : Json) :
    (∃ text, callToString print (some value) = .ok text) ↔
      value ≠ .null ∧ value.printable = true := by
  rw [callToString.eq_def]
  split
  · contradiction
  · rename_i isNull
    obtain rfl := Option.some.inj isNull
    simp
  · rename_i found present same
    obtain rfl := Option.some.inj same
    cases printable : value.printable with
    | true => simpa using present
    | false => simp

/-- Producing an SQS message fails only over its timestamp. -/
theorem SqsProducer.getPayload_body {η : Type} (registry : Registry η)
    (sqsUrls : Dictionary String String) (print : Json → String) (origin : Origin) (msg : Fields)
    (topic : String) (options : Fields) :
    (SqsProducer.getPayload registry sqsUrls print origin msg topic options).map
        SendMessageCommandInput.messageBody =
      (callToString print (((createMessageMetadata origin msg).spread options).get
        "timestamp")).map fun _ =>
          messageBody msg ((createMessageMetadata origin msg).spread options) := by
  rw [getPayload]
  rcases callToString print (((createMessageMetadata origin msg).spread options).get
    "timestamp") with thrown | timestamp
  · rfl
  · rfl

end Specifications

end Steveo
