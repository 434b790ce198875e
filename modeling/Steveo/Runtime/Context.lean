import Steveo.Library.Json

/-!
# Message metadata and the runner context

A producer adds metadata to every message body, and a runner turns the metadata it finds into the
context that it hands to the task.  The clocks, the hash and the conversion of values to numbers
are those of the two processes.
-/

namespace Steveo

mutual

/-- Whether a value can be converted to a string.  A property named `toString` hides the method,
and the elements of an array are converted one by one. -/
def Json.printable : Json → Bool
  | .obj fields => (Fields.get fields "toString").isNone
  | .arr items => Json.allPrintable items
  | _ => true

/-- Whether every element of an array can be converted to a string. -/
def Json.allPrintable : List Json → Bool
  | [] => true
  | item :: items => item.printable && Json.allPrintable items

end

/-- What the sending process reads off its machine. -/
structure Origin where
  hostname : String
  /-- Seconds since the epoch. -/
  timestamp : ℚ
  /-- High-resolution time in seconds and nanoseconds. -/
  start : ℚ × ℚ
  /-- Milliseconds since the epoch. -/
  startMs : ℚ
  /-- The first eight digits of the hash of a serialised object. -/
  sha1 : Fields → String

/-- What the receiving process reads off its machine, and its conversions of values. -/
structure Arrival where
  /-- Milliseconds since the epoch. -/
  now : ℚ
  /-- The number that a string spells; `none` is not a number. -/
  parse : String → Option ℚ
  /-- The string for a value. -/
  print : Json → String

/-- The metadata with which a message is sent. -/
def createMessageMetadata (origin : Origin) (message : Fields) : Fields :=
  (ownFields (message.get "_meta")).spread
    [("hostname", .str origin.hostname), ("timestamp", .num origin.timestamp),
      ("signature", .str (origin.sha1 (message.without "_meta"))),
      ("start", .arr [.num origin.start.1, .num origin.start.2]), ("startMs", .num origin.startMs)]

/-- The metadata of a message together with the time since it was sent. -/
structure Context where
  metadata : Fields
  /-- Milliseconds since the message was sent; `none` is not a number. -/
  duration : Option ℚ

/-- The number to which a value is converted. -/
def Arrival.toNumber (arrival : Arrival) : Json → Option ℚ
  | .null => some 0
  | .bool value => some (if value then 1 else 0)
  | .num value => some value
  | .str text => arrival.parse text
  | .arr items => arrival.parse (arrival.print (.arr items))
  | .half _ | .obj _ => none

/-- The time since a message was sent. -/
def getDuration (arrival : Arrival) (startMs : Json) : Except String (Option ℚ) :=
  if startMs.printable then
    .ok ((arrival.toNumber startMs).map fun started => arrival.now - started)
  else
    .error "TypeError: Cannot convert object to primitive value"

/-- The context in which a message body is handled. -/
def getContext (arrival : Arrival) (params : Json) : Except String Context :=
  match params with
  | .null => .error "TypeError: Cannot destructure property '_meta' of 'params' as it is null."
  | _ =>
      let metadata := params.get "_meta"
      match metadata.bind fun properties => properties.get "startMs" with
      | none => .ok ⟨ownFields metadata, some 0⟩
      | some startMs =>
          if truthy (some startMs) then
            (getDuration arrival startMs).map fun duration => ⟨ownFields metadata, duration⟩
          else
            .ok ⟨ownFields metadata, some 0⟩

/-- The second argument that a runner hands to a task. -/
inductive Argument
  | context (context : Context)
  | value (value : Json)

/-- The argument has a property with the given value. -/
def Argument.Has : Argument → String → Json → Prop
  | .context found, key, expected =>
      if key = "duration" then found.duration.map Json.num = some expected
      else found.metadata.get key = some expected
  | .value found, key, expected => found.get key = some expected

end Steveo
