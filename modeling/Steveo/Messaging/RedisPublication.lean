import Steveo.Messaging.Namespaces
import Steveo.Messaging.Outcomes

/-!
# Publishing to a Redis queue

A task initializes its queue and then sends its payloads side by side.  This file models one
publication between its awaits, where every call of the client is answered at some later time and
in any order.  The producer does not wait for a queue that it creates.
-/

namespace Steveo

namespace RedisPublication

/-- The queues of a server; the client library refuses an empty name. -/
structure Queues where
  names : List String
  named : "" ∉ names

/-- Whether a topic is found among the queues; an empty text counts as not found. -/
def Queues.lists (queues : Queues) (topic : String) : Bool :=
  (nonempty (queues.names.find? fun q => q = topic)).isSome

/-- One more queue. -/
def Queues.add (queues : Queues) (name : String) : Queues :=
  if empty : name = "" then queues
  else ⟨name :: queues.names, List.not_mem_cons_of_ne_of_not_mem (Ne.symm empty) queues.named⟩

/-- What is known of a promise. -/
inductive Promise
  | pending
  | fulfilled
  | rejected (reason : String)
  deriving DecidableEq

/-- What one payload waits for. -/
inductive Delivery
  | sending (data : String × Fields)
  | attributes
  | settled (result : Except String Unit)

namespace Delivery

/-- The message with which the client has been called first. -/
def message : Delivery → Option (String × Fields)
  | sending data => some data
  | _ => none

def failure : Delivery → Option String
  | settled (.error ex) => some ex
  | _ => none

def succeeded : Delivery → Bool
  | settled (.ok _) => true
  | _ => false

end Delivery

/-- An event for the listeners of the registry. -/
inductive Emitted
  | task_send (topic : String) (data : Option Json)
  | task_success (topic : String) (payload : Option Json)
  | task_failure (topic ex : String)
  | producer (event : ProducerEvent)

/-- A publication in progress, and the queues of the server. -/
structure Publication where
  queues : Queues
  /-- The promise of the producer's `initialize`. -/
  initialization : Promise
  /-- The queue that the producer has asked for; nothing waits for this promise. -/
  creation : Option (QueueParameters × Promise)
  deliveries : List Delivery
  /-- The messages with which the client has been called. -/
  issued : List (String × Fields)
  /-- The promise of the task's `publish`. -/
  promise : Promise
  emitted : List Emitted

/-- A publication that waits for the list of the queues. -/
def Publication.start (queues : Queues) : Publication :=
  ⟨queues, .pending, none, [], [], .pending, []⟩

/-- Something answers. -/
inductive Completion
  | listQueues (answer : Except String Unit)
  | createQueue (answer : Except String Unit)
  | sendMessage (number : Nat) (answer : Except String Unit)
  | getQueueAttributes (number : Nat) (answer : Except String Unit)
  /-- Another client has created a queue. -/
  | appeared (name : String)

/-! ## The code between two awaits -/

/-- What a task is asked to publish, one payload or several. -/
def params : Option Json → List (Option Json)
  | some (.arr items) => items.map some
  | payload => [payload]

/-- A producer starts to send a payload. -/
def send (origin : Origin) (topic : String) (payload : Option Json) : Delivery :=
  match messageFields payload with
  | .ok fields => .sending (RedisProducer.getPayload origin fields topic)
  | .error ex => .settled (.error ex)

section

variable (config : Fields) (origins : Nat → Origin) (topic : String) (payload : Option Json)

/-- The producer knows the queues: it asks for one that is missing, and goes on. -/
def initialized (publication : Publication) : Publication :=
  { publication with
    initialization := .fulfilled
    creation := if publication.queues.lists topic then none
      else some (queueParameters config topic, .pending) }

/-- The task sends all its payloads. -/
def sendAll (publication : Publication) : Publication :=
  let deliveries := (params payload).mapIdx fun index data => send (origins index) topic data
  { publication with
    deliveries
    issued := deliveries.filterMap Delivery.message
    emitted := publication.emitted ++ (params payload).map (.task_send topic) ++
      (deliveries.filterMap Delivery.failure).map fun ex => .producer (.producer_failure topic ex) }

/-- The task settles with the first payload that fails, or when all have been sent. -/
def conclude (publication : Publication) : Publication :=
  match publication.promise, publication.deliveries.findSome? Delivery.failure with
  | .pending, some ex =>
      { publication with
        promise := .rejected ex
        emitted := publication.emitted ++ [.task_failure topic ex] }
  | .pending, none =>
      if publication.deliveries.all Delivery.succeeded then
        { publication with
          promise := .fulfilled
          emitted := publication.emitted ++ [.task_success topic payload] }
      else publication
  | _, _ => publication

/-- The sending of one payload settles. -/
def settled (number : Nat) (result : Except String Unit) (publication : Publication) :
    Publication :=
  let event := match result with
    | .ok _ => .producer_success topic
    | .error ex => .producer_failure topic ex
  conclude topic payload { publication with
    deliveries := publication.deliveries.set number (.settled result)
    emitted := publication.emitted ++ [.producer event] }

/-- The publications of a payload to a topic. -/
def publish : System Publication Completion where
  step publication
    | .listQueues answer =>
        match publication.initialization, answer with
        | .pending, .ok _ => some (conclude topic payload
            (sendAll origins topic payload (initialized config topic publication)))
        | .pending, .error ex => some { publication with
            initialization := .rejected ex
            promise := .rejected ex
            emitted := publication.emitted ++ [.task_failure topic ex] }
        | _, _ => none
    | .createQueue answer =>
        match publication.creation, answer with
        | some (parameters, .pending), .ok _ => some { publication with
            queues := publication.queues.add parameters.qname
            creation := some (parameters, .fulfilled) }
        | some (parameters, .pending), .error ex => some { publication with
            creation := some (parameters, .rejected ex) }
        | _, _ => none
    | .sendMessage number answer =>
        match publication.deliveries[number]?, answer with
        | some (.sending _), .ok _ => some { publication with
            deliveries := publication.deliveries.set number .attributes }
        | some (.sending _), .error ex =>
            some (settled topic payload number (.error ex) publication)
        | _, _ => none
    | .getQueueAttributes number answer =>
        match publication.deliveries[number]? with
        | some .attributes => some (settled topic payload number answer publication)
        | _ => none
    | .appeared name => some { publication with queues := publication.queues.add name }

end

/-! ## The promise of `initialize` -/

/-- What the promise of `initialize` stands for. -/
structure Reliable (topic : String) (publication : Publication) : Prop where
  /-- Once it is fulfilled, the queue exists. -/
  existing : publication.initialization = .fulfilled → topic ∈ publication.queues.names
  /-- Nothing is sent to a queue whose creation has not completed. -/
  created : ∀ parameters promise, publication.creation = some (parameters, promise) →
    promise ≠ .fulfilled → publication.issued = []
  /-- A creation that fails is reported, and fails the publication. -/
  reported : ∀ parameters ex, publication.creation = some (parameters, .rejected ex) →
    publication.promise = .rejected ex ∧ .task_failure topic ex ∈ publication.emitted

/-- When the queues are listed, the queue of the topic is among them. -/
def Listed (topic : String) (publication : Publication) : Completion → Prop
  | .listQueues (.ok _) => topic ∈ publication.queues.names
  | _ => True

/-! ## What one answer can do -/

theorem Queues.lists_iff (queues : Queues) (topic : String) :
    queues.lists topic = true ↔ topic ∈ queues.names := by
  rw [lists]
  cases found : queues.names.find? fun q => q = topic with
  | none =>
      refine iff_of_false (by simp [nonempty]) fun member => ?_
      have other := List.find?_eq_none.mp found topic member
      simp at other
  | some name =>
      have member := List.mem_of_find?_eq_some found
      obtain rfl : name = topic := by simpa using List.find?_some found
      -- No queue has an empty name, so that what is found is not taken for missing.
      have filled : name ≠ "" := by
        rintro rfl
        exact queues.named member
      exact iff_of_true (by simp [nonempty, filled]) member

theorem Queues.mem_add {queues : Queues} {topic : String} (member : topic ∈ queues.names)
    (name : String) : topic ∈ (queues.add name).names := by
  rw [add]
  split
  · exact member
  · exact List.mem_cons_of_mem _ member

section

variable {config : Fields} {origins : Nat → Origin} {topic : String} {payload : Option Json}

/-- Settling only concerns the promise of the task and its listeners. -/
theorem conclude_keeps (topic : String) (payload : Option Json) (publication : Publication) :
    ∃ promise emitted, conclude topic payload publication =
      { publication with promise, emitted } := by
  rw [conclude]
  split
  · exact ⟨_, _, rfl⟩
  · split
    · exact ⟨_, _, rfl⟩
    · exact ⟨_, _, rfl⟩
  · exact ⟨_, _, rfl⟩

theorem settled_keeps (topic : String) (payload : Option Json) (number : Nat)
    (result : Except String Unit) (publication : Publication) :
    ∃ deliveries promise emitted, settled topic payload number result publication =
      { publication with deliveries, promise, emitted } := by
  obtain ⟨promise, emitted, concluded⟩ := conclude_keeps topic payload { publication with
    deliveries := publication.deliveries.set number (.settled result)
    emitted := publication.emitted ++ [.producer (match result with
      | .ok _ => .producer_success topic
      | .error ex => .producer_failure topic ex)] }
  exact ⟨_, promise, emitted, concluded⟩

/-- The answer to the listing fulfills the promise of `initialize` and may ask for the queue.
Unless that has been asked for, nothing else takes a queue away, asks for one or fulfills the
promise. -/
theorem publish_cases {publication after : Publication} {event : Completion}
    (happens : (publish config origins topic payload).step publication event = some after) :
    (event = .listQueues (.ok ()) ∧ after.initialization = .fulfilled ∧
      after.queues = publication.queues ∧
      (topic ∈ publication.queues.names → after.creation = none)) ∨
    publication.creation ≠ none ∨
    ((∀ answer, event ≠ .listQueues (.ok answer)) ∧ after.creation = publication.creation ∧
      (after.initialization = .fulfilled → publication.initialization = .fulfilled) ∧
      (topic ∈ publication.queues.names → topic ∈ after.queues.names)) := by
  cases event with
  | listQueues answer =>
      simp only [publish] at happens
      split at happens
      · obtain ⟨promise, emitted, concluded⟩ := conclude_keeps topic payload
          (sendAll origins topic payload (initialized config topic publication))
        rw [concluded] at happens
        obtain rfl := Option.some.inj happens
        exact Or.inl ⟨rfl, rfl, rfl, fun member => if_pos ((Queues.lists_iff _ _).mpr member)⟩
      · obtain rfl := Option.some.inj happens
        refine Or.inr (Or.inr ⟨fun answer same => ?_, rfl, fun fulfilled => ?_, id⟩)
        · cases same
        · cases fulfilled
      · cases happens
  | createQueue answer =>
      refine Or.inr (Or.inl fun missing => ?_)
      simp only [publish, missing] at happens
      cases happens
  | sendMessage number answer =>
      refine Or.inr (Or.inr ?_)
      simp only [publish] at happens
      split at happens
      · obtain rfl := Option.some.inj happens
        exact ⟨fun answer => Completion.noConfusion, rfl, id, id⟩
      · rename_i ex _
        obtain ⟨deliveries, promise, emitted, kept⟩ :=
          settled_keeps topic payload number (.error ex) publication
        rw [kept] at happens
        obtain rfl := Option.some.inj happens
        exact ⟨fun answer => Completion.noConfusion, rfl, id, id⟩
      · cases happens
  | getQueueAttributes number answer =>
      refine Or.inr (Or.inr ?_)
      simp only [publish] at happens
      split at happens
      · obtain ⟨deliveries, promise, emitted, kept⟩ :=
          settled_keeps topic payload number answer publication
        rw [kept] at happens
        obtain rfl := Option.some.inj happens
        exact ⟨fun answer => Completion.noConfusion, rfl, id, id⟩
      · cases happens
  | appeared name =>
      obtain rfl := Option.some.inj happens
      refine Or.inr (Or.inr ⟨fun answer => Completion.noConfusion, rfl, id, fun member => ?_⟩)
      exact Queues.mem_add member name

/-- The promise of `initialize` has been kept, and nothing had to be created for it. -/
structure Ready (topic : String) (publication : Publication) : Prop where
  uncreated : publication.creation = none
  existing : publication.initialization = .fulfilled → topic ∈ publication.queues.names

theorem Ready.reliable {publication : Publication} (ready : Ready topic publication) :
    Reliable topic publication where
  existing := ready.existing
  created parameters promise asked := by
    rw [ready.uncreated] at asked
    cases asked
  reported parameters ex failed := by
    rw [ready.uncreated] at failed
    cases failed

theorem Ready.step {publication after : Publication} {event : Completion}
    (ready : Ready topic publication) (listed : Listed topic publication event)
    (happens : (publish config origins topic payload).step publication event = some after) :
    Ready topic after := by
  rcases publish_cases happens with ⟨rfl, -, same, uncreated⟩ | asked | ⟨-, same, earlier, kept⟩
  · exact ⟨uncreated listed, fun _ => same ▸ listed⟩
  · exact absurd ready.uncreated asked
  · exact ⟨same.trans ready.uncreated, fun fulfilled => kept (ready.existing (earlier fulfilled))⟩

/-- A listing without the queue breaks the promise at once. -/
theorem listed_of_reliable {publication after : Publication} {event : Completion}
    (ready : Ready topic publication)
    (happens : (publish config origins topic payload).step publication event = some after)
    (reliable : Reliable topic after) : Listed topic publication event := by
  rcases publish_cases happens with ⟨rfl, fulfilled, same, -⟩ | asked | ⟨other, -⟩
  · have existing := reliable.existing fulfilled
    rw [same] at existing
    exact existing
  · exact absurd ready.uncreated asked
  · cases event with
    | listQueues answer =>
        cases answer with
        | ok answer => exact absurd rfl (other answer)
        | error ex => trivial
    | _ => trivial

/-- In a run, the promise of `initialize` is kept throughout exactly if the queue is among those
that are listed. -/
theorem reliable_iff_listed {queues : Queues} {events : List Completion} {final : Publication}
    (executed : (publish config origins topic payload).run events (.start queues) = some final) :
    (publish config origins topic payload).Throughout (Reliable topic) events (.start queues) ↔
      (publish config origins topic payload).Along (Listed topic) events (.start queues) := by
  refine System.throughout_iff_along (fun _ => Ready.reliable)
    (fun _ _ _ ready listed happens => ready.step listed happens)
    (fun _ _ _ ready happens reliable => listed_of_reliable ready happens reliable) ?_ executed
  exact ⟨rfl, fun fulfilled => Promise.noConfusion fulfilled⟩

end

/-! ## A queue that is not there yet -/

/-- The publications of an empty object to the topic `orders`. -/
def orders : System Publication Completion :=
  publish [] (fun _ => ProducerEngine.epoch) "orders" (some (.obj []))

/-- A server without queues. -/
def fresh : Queues := ⟨[], List.not_mem_nil⟩

/-- A server that has the queue. -/
def prepared : Queues := ⟨["orders"], by decide⟩

/-- On a server without queues, `initialize` is done and a message is sent before the queue exists;
and a creation that fails does not fail the publication. -/
theorem sent_before_created :
    (∃ after, orders.run [.listQueues (.ok ())] (.start fresh) = some after ∧
      after.initialization = .fulfilled ∧ "orders" ∉ after.queues.names ∧
      after.issued.length = 1) ∧
    (∃ after, orders.run [.listQueues (.ok ()), .createQueue (.error "Error: refused")]
        (.start fresh) = some after ∧
      after.promise = .pending ∧ after.emitted.length = 1) ∧
    ¬ orders.Throughout (Reliable "orders") [.listQueues (.ok ())] (.start fresh) := by
  refine ⟨⟨_, rfl, rfl, List.not_mem_nil, rfl⟩, ⟨_, rfl, rfl, rfl⟩, fun reliable => ?_⟩
  have later := reliable.2 _ rfl
  exact List.not_mem_nil (later.existing rfl)

/-- On a server that has the queue, the promise is kept until the message has been sent. -/
theorem sent_to_prepared :
    orders.Throughout (Reliable "orders")
      [.listQueues (.ok ()), .sendMessage 0 (.ok ()), .getQueueAttributes 0 (.ok ())]
      (.start prepared) := by
  obtain ⟨final, executed⟩ : ∃ final, orders.run
      [.listQueues (.ok ()), .sendMessage 0 (.ok ()), .getQueueAttributes 0 (.ok ())]
      (.start prepared) = some final := ⟨_, rfl⟩
  have listed : "orders" ∈ prepared.names := List.mem_singleton_self _
  exact (reliable_iff_listed executed).mpr
    ⟨listed, fun _ _ => ⟨trivial, fun _ _ => ⟨trivial, fun _ _ => trivial⟩⟩⟩

end RedisPublication

end Steveo
