import Steveo.Library.Execution
import Steveo.Messaging.Producer
import Steveo.Messaging.Runner
import Steveo.Runtime.Configuration

/-!
# Two Redis instances over one server

This file models the Redis producer and the Redis runner between two awaits.  The client library
is given by what each of its calls does to the queue that it names; which waiting piece of code of
which instance goes on next, and when, is left to the outside.
-/

namespace Steveo

open Steveo.Action Steveo.Configuration

/-! ## The client -/

/-- What a client is created with. -/
structure Connection where
  host : Option Json
  port : Option Json
  ns : Json

/-- The client of a producer and of a runner. -/
def redis (config : Fields) : Connection where
  host := config.get "redisHost"
  port := config.get "redisPort"
  ns := orElse (config.get "namespace") (.str "steveo")

/-- The parameters with which a queue is created. -/
structure QueueParameters where
  qname : String
  vt : Option Json
  maxsize : Option Json

/-- The parameters with which an instance creates a queue. -/
def queueParameters (config : Fields) (topic : String) : QueueParameters where
  qname := topic
  vt := config.get "visibilityTimeout"
  maxsize := config.get "redisMessageMaxsize"

/-- What the calls of a client do, at a time of the server's clock, to the queue that they name; a
queue that was not created is `none`. -/
structure RedisSMQ (κ : Type) where
  /-- Where the server keeps the queues of a namespace. -/
  keyspace : Json → String
  createQueue : Nat → QueueParameters → Action (Option κ) Unit
  sendMessage : Nat → String → Fields → Action (Option κ) String
  getQueueAttributes : Nat → String → Action (Option κ) Unit
  receiveMessage : Nat → String → Action (Option κ) (Option RedisMessage)
  deleteMessage : Nat → String → String → Action (Option κ) Unit

/-- Whether the topic is found in the list of all queues. -/
def listed {κ : Type} (topic : String) (queue : Option κ) : Bool := queue.isSome && topic != ""

namespace Namespaces

/-! ## The code between two awaits -/

/-- What a piece of code awaits. -/
inductive Stage
  /-- The producer's list of queues. -/
  | producerQueues
  /-- Nobody awaits the queue that the producer creates. -/
  | producerCreation
  | sending (data : Fields)
  | attributes
  /-- The runner's list of queues. -/
  | runnerQueues
  | runnerCreation
  | receiving
  | acquiring (message : RedisMessage)
  | deleting (id : String)
  | settled

/-- A piece of code that waits, with the topic that it is about. -/
structure Pending where
  topic : String
  stage : Stage

/-- What an instance can be asked to do. -/
inductive Operation
  | initializeTopic (topic : String)
  | send (origin : Origin) (topic : String) (payload : Fields)
  | createQueue (topic : String)
  | dequeue (topic : String)

namespace Operation

/-- The topic that an operation is about. -/
def topic : Operation → String
  | initializeTopic topic | send _ topic _ | createQueue topic | dequeue topic => topic

/-- What an operation awaits first. -/
def start : Operation → Stage
  | initializeTopic _ => .producerQueues
  | send origin topic payload => .sending (RedisProducer.getPayload origin payload topic).2
  | createQueue _ => .runnerQueues
  | dequeue _ => .receiving

end Operation

/-- A piece of code that went on: the queue and the stage that it leaves, and the messages that the
queue has taken from it or handed to it. -/
structure Turn (κ : Type) where
  queue : Option κ
  stage : Stage
  published : List RedisMessage := []
  received : List RedisMessage := []

variable {κ : Type} (rsmq : RedisSMQ κ)

/-- Go on with what is awaited.  The pool hands out a resource at some time of the machine, or
refuses.  What follows the deletion of a message asks nothing more of the server. -/
def Stage.answer (config : Fields) (clock : Nat) (resource : Option Arrival) (topic : String)
    (queue : Option κ) : Stage → Option (Turn κ)
  | .producerQueues =>
      some { queue, stage := if listed topic queue then .settled else .producerCreation }
  | .runnerQueues =>
      some { queue, stage := if listed topic queue then .settled else .runnerCreation }
  | .producerCreation | .runnerCreation =>
      some
        { queue := (exec (rsmq.createQueue clock (queueParameters config topic)) queue).2
          stage := .settled }
  | .sending data =>
      match exec (rsmq.sendMessage clock topic data) queue with
      | (.ok id, queue) =>
          some { queue, stage := .attributes, published := [⟨id, some (.obj data)⟩] }
      | (.error _, queue) => some { queue, stage := .settled }
  | .attributes =>
      some
        { queue := (exec (rsmq.getQueueAttributes clock topic) queue).2
          stage := .settled }
  | .receiving =>
      match exec (rsmq.receiveMessage clock topic) queue with
      | (.ok (some message), queue) =>
          some { queue, stage := .acquiring message, received := [message] }
      | (.ok none, queue) | (.error _, queue) => some { queue, stage := .settled }
  | .acquiring message =>
      match resource, message.message with
      | some arrival, some params =>
          match getContext arrival params with
          | .ok _ => some { queue, stage := .deleting message.id }
          | .error _ => some { queue, stage := .settled }
      | _, _ => some { queue, stage := .settled }
  | .deleting id =>
      some
        { queue := (exec (rsmq.deleteMessage clock topic id) queue).2
          stage := .settled }
  | .settled => none

/-! ## Two instances -/

/-- The two instances. -/
inductive Peer
  | first
  | second
  deriving DecidableEq

/-- The other instance. -/
def Peer.other : Peer → Peer
  | first => second
  | second => first

/-- A queue of the server: its namespace's place and its name. -/
abbrev Queue := String × String

/-- What an instance waits for, and the messages that went out and came in with their queues. -/
structure Client where
  pending : List Pending := []
  published : List (Queue × RedisMessage) := []
  received : List (Queue × RedisMessage) := []

/-- The server and the two instances. -/
structure Network (κ : Type) where
  queues : Queue → Option κ
  clients : Peer → Client

/-- Two new instances over a server. -/
def Network.initial (queues : Queue → Option κ) : Network κ := ⟨queues, fun _ => {}⟩

/-- What can happen. -/
inductive Event
  | begin (peer : Peer) (operation : Operation)
  | answer (peer : Peer) (index : Nat) (clock : Nat) (resource : Option Arrival)

/-- The instance to which something happens. -/
def Event.peer : Event → Peer
  | .begin peer _ | .answer peer _ _ _ => peer

section Networks

variable (config : Peer → Fields)

/-- The queue that an instance uses for a topic. -/
def queueOf (peer : Peer) (topic : String) : Queue :=
  (rsmq.keyspace (redis (config peer)).ns, topic)

@[simp] theorem queueOf_snd (peer : Peer) (topic : String) :
    (queueOf rsmq config peer topic).2 = topic := rfl

/-- An instance begins an operation. -/
def Client.begin (client : Client) (operation : Operation) : Client :=
  { client with pending := client.pending ++ [⟨operation.topic, operation.start⟩] }

/-- A waiting piece of code of an instance went on. -/
def Client.moved (client : Client) (index : Nat) (queue : Queue) (turn : Turn κ) : Client where
  pending := client.pending.set index ⟨queue.2, turn.stage⟩
  published := client.published ++ turn.published.map fun message => (queue, message)
  received := client.received ++ turn.received.map fun message => (queue, message)

/-- The network after an instance began an operation. -/
def Network.begin (network : Network κ) (peer : Peer) (operation : Operation) : Network κ :=
  { network with
    clients := Function.update network.clients peer ((network.clients peer).begin operation) }

/-- The network after a waiting piece of code of an instance went on. -/
def Network.moved (network : Network κ) (peer : Peer) (index : Nat) (queue : Queue)
    (turn : Turn κ) : Network κ where
  queues := Function.update network.queues queue turn.queue
  clients := Function.update network.clients peer ((network.clients peer).moved index queue turn)

/-- Two instances with the configurations that they keep. -/
def system : System (Network κ) Event where
  step network
    | .begin peer operation => some (network.begin peer operation)
    | .answer peer index clock resource =>
        (network.clients peer).pending[index]?.bind fun pending =>
          let queue := queueOf rsmq config peer pending.topic
          (pending.stage.answer rsmq (config peer) clock resource pending.topic
            (network.queues queue)).map (network.moved peer index queue)

/-- No message that was published through one instance is received by the other, and an instance
receives what it receives when nothing happens to the other. -/
def Isolated (queues : Queue → Option κ) (events : List Event) : Prop :=
  ∀ final, (system rsmq config).run events (.initial queues) = some final → ∀ peer,
    (∀ message ∈ (final.clients peer.other).published,
      message ∉ (final.clients peer).received) ∧
    ∃ alone, (system rsmq config).run (events.filter fun event => event.peer = peer)
      (.initial queues) = some alone ∧
        (alone.clients peer).received = (final.clients peer).received

/-- No queue is used by both instances. -/
def Separate (events : List Event) : Prop :=
  ∀ peer other operation operation', Event.begin peer operation ∈ events →
    Event.begin other operation' ∈ events → peer ≠ other →
      queueOf rsmq config peer operation.topic ≠ queueOf rsmq config other operation'.topic

/-- The queues that an instance is asked to use. -/
def Uses (events : List Event) (peer : Peer) (queue : Queue) : Prop :=
  ∃ operation, Event.begin peer operation ∈ events ∧
    queue = queueOf rsmq config peer operation.topic

/-- Everything at an instance is about queues that it is asked to use. -/
structure Keeps (events : List Event) (peer : Peer) (client : Client) : Prop where
  pending : ∀ pending ∈ client.pending,
    Uses rsmq config events peer (queueOf rsmq config peer pending.topic)
  published : ∀ delivered ∈ client.published, Uses rsmq config events peer delivered.1
  received : ∀ delivered ∈ client.received, Uses rsmq config events peer delivered.1

/-- Networks that look alike to an instance. -/
structure Alike (events : List Event) (peer : Peer) (left right : Network κ) : Prop where
  client : left.clients peer = right.clients peer
  queues : ∀ queue, Uses rsmq config events peer queue → left.queues queue = right.queues queue

variable {rsmq config} {events : List Event} {queues : Queue → Option κ}

theorem Separate.not_uses (separate : Separate rsmq config events) {peer other : Peer}
    (different : peer ≠ other) {queue : Queue} (uses : Uses rsmq config events peer queue) :
    ¬ Uses rsmq config events other queue := by
  rintro ⟨operation', begins', same'⟩
  obtain ⟨operation, begins, same⟩ := uses
  exact separate peer other operation operation' begins begins' different
    (same.symm.trans same')

/-- A step changes one instance, and of the queues at most one that this instance has in use. -/
theorem step_cases {before after : Network κ} {event : Event}
    (step : (system rsmq config).step before event = some after) :
    (∃ peer operation, event = .begin peer operation ∧ after = before.begin peer operation) ∨
    ∃ peer index clock resource pending turn, event = .answer peer index clock resource ∧
      (before.clients peer).pending[index]? = some pending ∧
      pending.stage.answer rsmq (config peer) clock resource pending.topic
        (before.queues (queueOf rsmq config peer pending.topic)) = some turn ∧
      after = before.moved peer index (queueOf rsmq config peer pending.topic) turn := by
  cases event with
  | begin peer operation => exact .inl ⟨peer, operation, rfl, (Option.some.inj step).symm⟩
  | answer peer index clock resource =>
      obtain ⟨pending, found, moved⟩ := Option.bind_eq_some_iff.mp step
      obtain ⟨turn, answered, rfl⟩ := Option.map_eq_some_iff.mp moved
      exact .inr ⟨peer, index, clock, resource, pending, turn, rfl, found, answered, rfl⟩

theorem Keeps.begin {peer : Peer} {client : Client} (keeps : Keeps rsmq config events peer client)
    {operation : Operation} (begins : Event.begin peer operation ∈ events) :
    Keeps rsmq config events peer (client.begin operation) where
  pending := by
    intro pending member
    rcases List.mem_append.mp member with earlier | new
    · exact keeps.pending pending earlier
    · rw [List.mem_singleton.mp new]
      exact ⟨operation, begins, rfl⟩
  published := keeps.published
  received := keeps.received

theorem Keeps.moved {peer : Peer} {client : Client} (keeps : Keeps rsmq config events peer client)
    {index : Nat} {pending : Pending} (found : client.pending[index]? = some pending)
    (turn : Turn κ) :
    Keeps rsmq config events peer
      (client.moved index (queueOf rsmq config peer pending.topic) turn) := by
  have uses := keeps.pending pending (List.mem_of_getElem? found)
  refine ⟨fun waiting member => ?_, fun delivered member => ?_, fun delivered member => ?_⟩
  · rcases List.mem_or_eq_of_mem_set member with earlier | rfl
    · exact keeps.pending waiting earlier
    · exact uses
  · rcases List.mem_append.mp member with earlier | new
    · exact keeps.published delivered earlier
    · obtain ⟨message, -, rfl⟩ := List.mem_map.mp new
      exact uses
  · rcases List.mem_append.mp member with earlier | new
    · exact keeps.received delivered earlier
    · obtain ⟨message, -, rfl⟩ := List.mem_map.mp new
      exact uses

/-- Every step keeps the instances to the queues that they are asked to use. -/
theorem keeps_step {before after : Network κ} {event : Event}
    (keeps : ∀ peer, Keeps rsmq config events peer (before.clients peer)) (member : event ∈ events)
    (step : (system rsmq config).step before event = some after) (peer : Peer) :
    Keeps rsmq config events peer (after.clients peer) := by
  rcases step_cases step with ⟨changed, operation, rfl, rfl⟩ |
    ⟨changed, index, clock, resource, pending, turn, rfl, found, -, rfl⟩
  · by_cases same : peer = changed
    · subst same
      simpa [Network.begin] using (keeps peer).begin member
    · simpa [Network.begin, Function.update_of_ne same] using keeps peer
  · by_cases same : peer = changed
    · subst same
      simpa [Network.moved] using (keeps peer).moved found turn
    · simpa [Network.moved, Function.update_of_ne same] using keeps peer

/-- What an instance does depends only on itself and its queues. -/
theorem Alike.follows {peer : Peer} {left right next : Network κ} {event : Event}
    (alike : Alike rsmq config events peer left right) (own : event.peer = peer)
    (keeps : Keeps rsmq config events peer (left.clients peer))
    (step : (system rsmq config).step left event = some next) :
    ∃ other, (system rsmq config).step right event = some other ∧
      Alike rsmq config events peer next other := by
  rcases step_cases step with ⟨changed, operation, rfl, rfl⟩ |
    ⟨changed, index, clock, resource, pending, turn, rfl, found, answered, rfl⟩
  · obtain rfl : changed = peer := own
    exact ⟨_, rfl, by simp [Network.begin, alike.client], alike.queues⟩
  · obtain rfl : changed = peer := own
    have uses := keeps.pending pending (List.mem_of_getElem? found)
    have found' := found
    rw [alike.client] at found'
    rw [alike.queues _ uses] at answered
    refine ⟨right.moved changed index (queueOf rsmq config changed pending.topic) turn, ?_,
      by simp [Network.moved, alike.client], fun queue used => ?_⟩
    · simp only [system, found', Option.bind_some, answered, Option.map_some]
    · by_cases same : queue = queueOf rsmq config changed pending.topic
      · subst same
        simp [Network.moved]
      · simpa [Network.moved, Function.update_of_ne same] using alike.queues queue used

/-- What happens to the other instance changes none of the queues that an instance uses. -/
theorem Alike.ignores (separate : Separate rsmq config events) {peer : Peer}
    {left right next : Network κ} {event : Event}
    (alike : Alike rsmq config events peer left right) (foreign : event.peer ≠ peer)
    (keeps : ∀ peer, Keeps rsmq config events peer (left.clients peer))
    (step : (system rsmq config).step left event = some next) :
    Alike rsmq config events peer next right := by
  rcases step_cases step with ⟨changed, operation, rfl, rfl⟩ |
    ⟨changed, index, clock, resource, pending, turn, rfl, found, -, rfl⟩
  · have different : peer ≠ changed := Ne.symm foreign
    exact ⟨by simpa [Network.begin, Function.update_of_ne different] using alike.client,
      alike.queues⟩
  · have different : peer ≠ changed := Ne.symm foreign
    refine ⟨by simpa [Network.moved, Function.update_of_ne different] using alike.client,
      fun queue used => ?_⟩
    have uses := (keeps changed).pending pending (List.mem_of_getElem? found)
    have apart : queue ≠ queueOf rsmq config changed pending.topic := by
      rintro rfl
      exact separate.not_uses different used uses
    simpa [Network.moved, Function.update_of_ne apart] using alike.queues queue used

/-- Instances that use no queue in common are isolated. -/
theorem isolated_of_separate (separate : Separate rsmq config events) :
    Isolated rsmq config queues events := by
  intro final run peer
  let invariant (network : Network κ) : Prop :=
    ∀ owner, Keeps rsmq config events owner (network.clients owner)
  have start : invariant (.initial queues) :=
    fun owner => ⟨by simp [Network.initial], by simp [Network.initial], by simp [Network.initial]⟩
  have preserved (before : Network κ) (event : Event) (after : Network κ)
      (kept : invariant before) (member : event ∈ events)
      (step : (system rsmq config).step before event = some after) : invariant after :=
    fun owner => keeps_step kept member step owner
  constructor
  · intro message published received
    have keeps : invariant final := System.invariant_run preserved start
      ((system rsmq config).along_of_forall (fun _ member => member) _) run
    have different : peer ≠ peer.other := by cases peer <;> decide
    exact separate.not_uses different ((keeps peer).received message received)
      ((keeps peer.other).published message published)
  · have follows (left right : Network κ) (event : Event) (next : Network κ)
        (alike : Alike rsmq config events peer left right)
        (own : decide (event.peer = peer) = true) (kept : invariant left) (_ : event ∈ events)
        (step : (system rsmq config).step left event = some next) :
        ∃ other, (system rsmq config).step right event = some other ∧
          Alike rsmq config events peer next other :=
      alike.follows (of_decide_eq_true own) (kept peer) step
    have ignores (left right : Network κ) (event : Event) (next : Network κ)
        (alike : Alike rsmq config events peer left right)
        (foreign : decide (event.peer = peer) = false) (kept : invariant left)
        (_ : event ∈ events) (step : (system rsmq config).step left event = some next) :
        Alike rsmq config events peer next right :=
      alike.ignores separate (of_decide_eq_false foreign) kept step
    have same : Alike rsmq config events peer (.initial queues) (.initial queues) :=
      ⟨rfl, fun _ _ => rfl⟩
    obtain ⟨alone, run', ends⟩ :=
      System.run_filter preserved follows ignores same start (fun _ member => member) run
    exact ⟨alone, run', congrArg Client.received ends.client.symm⟩

/-- Instances whose clients are given namespaces that the server keeps apart are isolated. -/
theorem isolated_of_keyspace (apart : rsmq.keyspace (redis (config .first)).ns ≠
    rsmq.keyspace (redis (config .second)).ns) : Isolated rsmq config queues events := by
  refine isolated_of_separate ?_
  intro peer other operation operation' _ _ different same
  have places := congrArg Prod.fst same
  cases peer <;> cases other
  · exact different rfl
  · exact apart places
  · exact apart places.symm
  · exact different rfl

end Networks

/-! ## Instances with different namespaces -/

/-- Two Redis instances that are given one server and different namespaces. -/
structure Neighbours where
  environment : Peer → Environment
  given : Peer → Fields
  engine : ∀ peer, (given peer).get "engine" = some (.str "redis")
  host : (given .first).get "redisHost" = (given .second).get "redisHost"
  port : (given .first).get "redisPort" = (given .second).get "redisPort"
  namespaces : (given .first).get "namespace" ≠ (given .second).get "namespace"

/-- No name of a queue is used by both instances. -/
def Apart (events : List Event) : Prop :=
  ∀ peer other operation operation', Event.begin peer operation ∈ events →
    Event.begin other operation' ∈ events → peer ≠ other → operation.topic ≠ operation'.topic

namespace Neighbours

variable (neighbours : Neighbours)

/-- The configuration that an instance keeps. -/
def config (peer : Peer) : Fields :=
  match getConfig (neighbours.environment peer) (neighbours.given peer) with
  | .ok config => config
  | .error _ => []

theorem config_eq (peer : Peer) :
    neighbours.config peer = commonParameters (neighbours.environment peer)
      (neighbours.given peer) ++ redisParameters (neighbours.given peer) := by
  rw [config, getConfig_redis _ (neighbours.engine peer)]

/-- Whatever namespace an instance is given, its clients have the default one. -/
theorem redis_config (peer : Peer) : redis (neighbours.config peer) =
    { host := (neighbours.given peer).get "redisHost"
      port := (neighbours.given peer).get "redisPort"
      ns := .str "steveo" } := by
  obtain ⟨host, port⟩ := get_redis_server (neighbours.environment peer) (neighbours.given peer)
  rw [redis, config_eq, get_redis_namespace, host, port]
  rfl

/-- The clients of the two instances cannot be told apart. -/
theorem redis_eq : redis (neighbours.config .first) = redis (neighbours.config .second) := by
  rw [redis_config, redis_config, neighbours.host, neighbours.port]

/-- Instances with different namespaces are isolated in every run in which no name of a queue is
used by both. -/
theorem isolated_of_apart {κ : Type} (rsmq : RedisSMQ κ) (queues : Queue → Option κ)
    {events : List Event} (apart : Apart events) :
    Isolated rsmq neighbours.config queues events := by
  refine isolated_of_separate ?_
  intro peer other operation operation' begins begins' different same
  exact apart peer other operation operation' begins begins' different (congrArg Prod.snd same)

end Neighbours

/-- A client whose queues hand out every message once, in the order in which they were sent. -/
def inOrder : RedisSMQ (List RedisMessage) where
  keyspace
    | .str ns => ns ++ ":"
    | _ => ":"
  createQueue _ _ := do
    match ← get with
    | none => set (some ([] : List RedisMessage))
    | some _ => throw "queueExists: Queue exists"
  sendMessage clock _ data := do
    match ← get with
    | none => throw "queueNotFound: Queue not found"
    | some messages =>
        set (some (messages ++ [(⟨toString clock, some (.obj data)⟩ : RedisMessage)]))
        pure (toString clock)
  getQueueAttributes _ _ := do
    match ← get with
    | none => throw "queueNotFound: Queue not found"
    | some _ => pure ()
  receiveMessage _ _ := do
    match ← get with
    | none => throw "queueNotFound: Queue not found"
    | some [] => pure none
    | some (message :: messages) =>
        set (some messages)
        pure (some message)
  deleteMessage _ _ _ := pure ()

@[simp] theorem inOrder_createQueue (clock : Nat) (parameters : QueueParameters) :
    exec (inOrder.createQueue clock parameters) none = (.ok (), some []) := rfl

@[simp] theorem inOrder_sendMessage (clock : Nat) (topic : String) (data : Fields)
    (messages : List RedisMessage) :
    exec (inOrder.sendMessage clock topic data) (some messages) =
      (.ok (toString clock), some (messages ++ [⟨toString clock, some (.obj data)⟩])) := rfl

@[simp] theorem inOrder_receiveMessage (clock : Nat) (topic : String) (message : RedisMessage)
    (messages : List RedisMessage) :
    exec (inOrder.receiveMessage clock topic) (some (message :: messages)) =
      (.ok (some message), some messages) := rfl

/-- The first instance creates a queue and publishes a message, and the second one polls. -/
def sharedQueue (origin : Origin) (topic : String) (payload : Fields) : List Event :=
  [.begin .first (.createQueue topic), .answer .first 0 0 none, .answer .first 0 0 none,
    .begin .first (.send origin topic payload), .answer .first 1 0 none,
    .begin .second (.dequeue topic), .answer .second 0 1 none]

/-- Whatever their namespaces, one instance receives what the other has published. -/
theorem Neighbours.crosses (neighbours : Neighbours) (origin : Origin) (topic : String)
    (payload : Fields) :
    ¬ Isolated inOrder neighbours.config (fun _ => none) (sharedQueue origin topic payload) := by
  intro isolated
  have same : queueOf inOrder neighbours.config .second topic =
      queueOf inOrder neighbours.config .first topic := by
    rw [queueOf, queueOf, neighbours.redis_eq]
  have run : ∃ final, (system inOrder neighbours.config).run (sharedQueue origin topic payload)
      (.initial fun _ => none) = some final ∧ ∃ message ∈ (final.clients .first).published,
        message ∈ (final.clients .second).received := by
    simp [sharedQueue, system, Network.begin, Network.moved, Client.begin, Client.moved,
      Network.initial, Stage.answer, Operation.start, Operation.topic, same, listed]
  obtain ⟨final, run, message, published, received⟩ := run
  exact (isolated final run .second).1 message published received

/-- The configuration of an instance with a namespace. -/
def namespaced (ns : String) : Fields :=
  [("engine", .str "redis"), ("redisHost", .str "localhost"), ("redisPort", .num 6379),
    ("namespace", .str ns)]

/-- Two instances on one server with the namespaces `orders` and `billing`. -/
def ordersAndBilling : Neighbours where
  environment _ :=
    { merge := Fields.spread
      print := fun _ => ""
      parseInt := fun _ => none }
  given
    | .first => namespaced "orders"
    | .second => namespaced "billing"
  engine peer := by cases peer <;> rfl
  host := rfl
  port := rfl
  namespaces := by simp [namespaced, Fields.get_cons]

/-- While each uses queues of its own, the two instances are isolated. -/
theorem ordersAndBilling_isolated : Isolated inOrder ordersAndBilling.config (fun _ => none)
    [.begin .first (.createQueue "ORDERS"), .begin .second (.createQueue "BILLING"),
      .answer .second 0 0 none, .answer .first 0 0 none] := by
  refine ordersAndBilling.isolated_of_apart inOrder _ ?_
  intro peer other operation operation' begins begins' different
  simp only [List.mem_cons, Event.begin.injEq, reduceCtorEq, List.not_mem_nil, or_false]
    at begins begins'
  rcases begins with ⟨rfl, rfl⟩ | ⟨rfl, rfl⟩ <;> rcases begins' with ⟨rfl, rfl⟩ | ⟨rfl, rfl⟩
  · exact absurd rfl different
  · decide
  · decide
  · exact absurd rfl different

/-- The server keeps the two namespaces apart, but a message for a queue of one name crosses. -/
theorem ordersAndBilling_cross :
    inOrder.keyspace (.str "orders") ≠ inOrder.keyspace (.str "billing") ∧
      ¬ Isolated inOrder ordersAndBilling.config (fun _ => none)
        (sharedQueue ⟨"host", 0, (0, 0), 0, fun _ => ""⟩ "PAYMENT" [("order", .num 1)]) :=
  ⟨by decide, ordersAndBilling.crosses _ _ _⟩

end Namespaces

end Steveo
