import Steveo.Library.Sharing
import Steveo.Messaging.Batch

/-!
# Handing over the messages of a Redis queue

Any number of runners take messages from the queues of one server and handle them side by side.  A
runner deletes a message before it calls the handler of the task.  A message that is hidden for too
short a time is handed over again, and a runner may stop at any point.
-/

namespace Steveo

namespace RedisDelivery

open Async Batch

variable {η χ σ : Type}

/-! ## The server -/

/-- A message that has been handed over, and how often that has happened by then. -/
structure Receipt where
  topic : String
  message : RedisMessage
  rc : Nat

/-- A message of a queue. -/
structure Address where
  topic : String
  id : String
  deriving DecidableEq

/-- The message that has been handed over. -/
def Receipt.address (receipt : Receipt) : Address := ⟨receipt.topic, receipt.message.id⟩

/-- What the runners see of the messages: whether one is in its queue, and how often it has been
handed over. -/
structure Queues (σ : Type) where
  present : σ → Address → Prop
  received : σ → Address → Nat

/-- A message that is handed over is counted.  One that has been taken from its queue does not come
back. -/
structure Queues.Lawful (queues : Queues σ) (before after : σ) : Prop where
  counted : ∀ address, queues.received before address ≤ queues.received after address
  gone : ∀ address, queues.received before address ≠ 0 → ¬ queues.present before address →
    ¬ queues.present after address ∧
      queues.received after address = queues.received before address

/-- The server with its queues, and what else answers the runners. -/
structure Server (η χ σ : Type) extends Queues σ where
  receiveMessage : χ → String → Action σ (Option Receipt)
  serve : χ → ∀ call : Call η, Action σ call.Answer
  receives : ∀ choice topic state,
    toQueues.Lawful state (Action.exec (receiveMessage choice topic) state).2
  serves : ∀ choice call state, toQueues.Lawful state (Action.exec (serve choice call) state).2
  idle : ∀ choice call state address,
    received (Action.exec (serve choice call) state).2 address = received state address
  hands : ∀ choice topic state receipt,
    (Action.exec (receiveMessage choice topic) state).1 = .ok (some receipt) →
      receipt.topic = topic ∧ received state receipt.address < receipt.rc ∧
        receipt.rc = received (Action.exec (receiveMessage choice topic) state).2 receipt.address
  deletes : ∀ choice topic id state,
    (Action.exec (serve choice (.deleteMessage topic id)) state).1 = .ok () →
      ¬ present (Action.exec (serve choice (.deleteMessage topic id)) state).2 ⟨topic, id⟩

/-! ## The runners -/

/-- A message that a runner has been handed, and how far it has come with it. -/
structure Delivery (η : Type) where
  setup : Setup η
  receipt : Receipt
  item : Item (Call.Answer (η := η)) Unit

/-- The server and all messages that have been handed over. -/
structure State (η σ : Type) where
  server : σ
  deliveries : List (Delivery η)

/-- What can happen: a runner asks for a message of a topic, or it gets the answer that it awaits
while it handles one. -/
inductive Event (η χ : Type)
  | dequeue (setup : Setup η) (topic : String) (choice : χ)
  | answer (index : Nat) (choice : χ)

/-- A runner begins to handle a message. -/
def Delivery.begin (setup : Setup η) (receipt : Receipt) : Delivery η where
  setup := setup
  receipt := receipt
  item := .fresh true (Redis.receive setup receipt.topic receipt.message)

variable (server : Server η χ σ)

/-- The next state, if the event can happen. -/
def step (state : State η σ) : Event η χ → Option (State η σ)
  | .dequeue setup topic choice =>
      match Action.exec (server.receiveMessage choice topic) state.server with
      | (.ok (some receipt), after) =>
          some ⟨after, state.deliveries ++ [.begin setup receipt]⟩
      | (.ok none, after) | (.error _, after) => some { state with server := after }
  | .answer index choice =>
      state.deliveries[index]?.bind fun delivery =>
        delivery.item.pending.bind fun called =>
          (delivery.item.reply fun call =>
            (Action.exec (server.serve choice call) state.server).1).map fun item =>
              ⟨(Action.exec (server.serve choice called) state.server).2,
                state.deliveries.set index { delivery with item }⟩

/-- The runners and their server. -/
def system : System (State η σ) (Event η χ) := ⟨step server⟩

/-- A runner goes on with a message only while nobody else has been handed it since. -/
def Timely (state : State η σ) : Event η χ → Prop
  | .dequeue _ _ _ => True
  | .answer index _ => ∀ delivery, state.deliveries[index]? = some delivery →
      delivery.receipt.rc = server.received state.server delivery.receipt.address

/-! ## What a handling asks -/

/-- The message has been deleted. -/
def Deleted (receipt : Receipt) (entries : List (Entry (Call.Answer (η := η)))) : Prop :=
  ⟨.deleteMessage receipt.topic receipt.message.id, .ok ()⟩ ∈ entries

/-- How often handlers have been called. -/
def subscribed (entries : List (Entry (Call.Answer (η := η)))) : Nat :=
  entries.countP fun entry =>
    match entry.1 with
    | .subscribe _ _ _ => true
    | _ => false

/-- A call of a handler is counted. -/
theorem subscribed_answered (entries : List (Entry (Call.Answer (η := η)))) (call : Call η)
    (answer : Except String call.Answer) :
    subscribed (entries ++ [⟨call, answer⟩]) = subscribed entries ∨
      (∃ task payload argument, call = .subscribe task payload argument) ∧
        subscribed (entries ++ [⟨call, answer⟩]) = subscribed entries + 1 := by
  rw [subscribed, List.countP_append]
  cases call with
  | subscribe task payload argument => exact .inr ⟨⟨task, payload, argument, rfl⟩, rfl⟩
  | _ => exact .inl rfl

/-- A handler that is called is the one of the topic, and it gets what the message contains. -/
def Serves (setup : Setup η) (receipt : Receipt) : Call η → Prop
  | .subscribe task payload argument =>
      setup.registry.getTask receipt.topic = some (.own task) ∧
        ∃ params, receipt.message.message = some params ∧
          payload = (ownFields params).without "context" ∧
            argument = .value ((params.get "context").getD .null)
  | _ => True

/-- A handling deletes its own message, and after that it calls a handler once. -/
def Justified (receipt : Receipt) (entries : List (Entry (Call.Answer (η := η)))) : Call η → Prop
  | .deleteMessage topic id => topic = receipt.topic ∧ id = receipt.message.id
  | .subscribe _ _ _ => Deleted receipt entries ∧ subscribed entries = 0
  | _ => True

/-- What a handling may ask. -/
def Asked (setup : Setup η) (receipt : Receipt) (entries : List (Entry (Call.Answer (η := η))))
    (call : Call η) : Prop :=
  Serves setup receipt call ∧ Justified receipt entries call

theorem handleMessage_asks (setup : Setup η) (receipt : Receipt)
    {entries : List (Entry (Call.Answer (η := η)))} (first : subscribed entries = 0) :
    (Redis.handleMessage setup receipt.topic receipt.message).Asks (Asked setup receipt)
      entries := by
  rw [Redis.handleMessage]
  cases parsed : receipt.message.message with
  | none => trivial
  | some params =>
      dsimp only
      refine .bind trivial fun context received => ?_
      refine .bind ⟨⟨trivial, trivial⟩, fun _ => trivial⟩ fun emitted _ value same => ?_
      refine .bind ⟨⟨trivial, rfl, rfl⟩, fun _ => trivial⟩ fun answer _ value deleted => ?_
      cases known : setup.registry.getTask receipt.topic with
      | none => trivial
      | some found =>
          cases found with
          | inherited => trivial
          | own task =>
              dsimp only
              refine .bind ⟨⟨⟨known, params, parsed, rfl, rfl⟩, ?_, ?_⟩, fun _ => trivial⟩
                fun resolved _ value settles => ?_
              · rw [Deleted, deleted]
                exact List.mem_append_right _ (List.mem_singleton_self _)
              · simpa [subscribed] using first
              · refine .bind trivial fun context again => ?_
                exact .bind ⟨⟨trivial, trivial⟩, fun _ => trivial⟩ fun _ _ _ _ => trivial

theorem receive_asks (setup : Setup η) (receipt : Receipt) :
    (Redis.receive setup receipt.topic receipt.message).Asks (Asked setup receipt) [] := by
  rw [Redis.receive]
  refine .bind (.attempt ⟨⟨trivial, trivial⟩, fun _ => trivial⟩) ?_
  rw [ends_attempt]
  intro acquired _ value same
  obtain rfl := Except.ok.inj same
  cases acquired with
  | error message => exact ⟨⟨trivial, trivial⟩, fun _ => trivial⟩
  | ok resource =>
      refine .bind (.attempt (handleMessage_asks setup receipt rfl)) ?_
      rw [ends_attempt]
      refine .of_forall _ fun entries outcome value same => ?_
      obtain rfl := Except.ok.inj same
      cases outcome with
      | error message =>
          exact .bind ⟨⟨trivial, trivial⟩, fun _ => trivial⟩ fun _ _ _ _ =>
            ⟨⟨trivial, trivial⟩, fun _ => trivial⟩
      | ok finished =>
          cases finished with
          | true => exact ⟨⟨trivial, trivial⟩, fun _ => trivial⟩
          | false => trivial

/-! ## Invariants -/

/-- What holds of a handover, whatever the runners do. -/
structure Delivery.Sound (delivery : Delivery η) (state : σ) : Prop where
  asks : delivery.item.program.Asks (Asked delivery.setup delivery.receipt) delivery.item.log
  serves : ∀ entry ∈ delivery.item.log, Serves delivery.setup delivery.receipt entry.1
  positive : delivery.receipt.rc ≠ 0
  counted : delivery.receipt.rc ≤ server.received state delivery.receipt.address
  deleted : Deleted delivery.receipt delivery.item.log →
    ¬ server.present state delivery.receipt.address
  handled : subscribed delivery.item.log ≠ 0 → Deleted delivery.receipt delivery.item.log
  once : subscribed delivery.item.log ≤ 1

/-- A later handover of a message has a greater count. -/
def Later (earlier later : Receipt) : Prop :=
  earlier.address = later.address → earlier.rc < later.rc

/-- The handovers in their order. -/
def State.receipts (state : State η σ) : List Receipt := state.deliveries.map Delivery.receipt

/-- What holds in every run. -/
structure State.Sound (state : State η σ) : Prop where
  deliveries : ∀ delivery ∈ state.deliveries, delivery.Sound server state.server
  ordered : state.receipts.Pairwise Later

section Steps

variable {server} {before after : State η σ} {delivery : Delivery η}

/-- The changes of the server leave a handover sound. -/
theorem Delivery.Sound.mono {state later : σ} (sound : delivery.Sound server state)
    (lawful : server.Lawful state later) : delivery.Sound server later := by
  have counted := sound.counted
  have grown := lawful.counted delivery.receipt.address
  have known : server.received state delivery.receipt.address ≠ 0 := by
    have positive := sound.positive
    omega
  exact
    { asks := sound.asks
      serves := sound.serves
      positive := sound.positive
      counted := counted.trans grown
      deleted := fun deleted => (lawful.gone _ known (sound.deleted deleted)).1
      handled := sound.handled
      once := sound.once }

theorem step_answer {index : Nat} {choice : χ}
    (stepped : step server before (.answer index choice) = some after) :
    ∃ delivery item call resume, before.deliveries[index]? = some delivery ∧
      delivery.item.program = .await call resume ∧
        item.program = resume (Action.exec (server.serve choice call) before.server).1 ∧
          item.log = delivery.item.log ++
            [⟨call, (Action.exec (server.serve choice call) before.server).1⟩] ∧
            after = ⟨(Action.exec (server.serve choice call) before.server).2,
              before.deliveries.set index { delivery with item }⟩ := by
  obtain ⟨delivery, found, moved⟩ := Option.bind_eq_some_iff.mp stepped
  obtain ⟨call, pending, answered⟩ := Option.bind_eq_some_iff.mp moved
  obtain ⟨item, replied, rfl⟩ := Option.map_eq_some_iff.mp answered
  obtain ⟨resume, awaits⟩ := Item.pending_eq_some.mp pending
  obtain ⟨-, -, -, asked, resumed, awaiting, goes, log⟩ := Item.reply_spec replied
  rw [awaits] at awaiting
  obtain ⟨rfl, continues⟩ := Async.await.inj awaiting
  obtain rfl := eq_of_heq continues
  exact ⟨delivery, item, call, resume, found, awaits, goes, log, rfl⟩

/-- A handling that gets an answer stays sound. -/
theorem Delivery.Sound.answer {state : σ} {item : Item (Call.Answer (η := η)) Unit} {call : Call η}
    {resume : Except String call.Answer → Async (Call.Answer (η := η)) Unit} {choice : χ}
    (sound : delivery.Sound server state) (awaits : delivery.item.program = .await call resume)
    (goes : item.program = resume (Action.exec (server.serve choice call) state).1)
    (log : item.log = delivery.item.log ++
      [⟨call, (Action.exec (server.serve choice call) state).1⟩]) :
    Delivery.Sound server { delivery with item }
      (Action.exec (server.serve choice call) state).2 := by
  have later := sound.mono (server.serves choice call state)
  have asks := sound.asks
  rw [awaits] at asks
  obtain ⟨⟨serves, justified⟩, continues⟩ := asks
  refine { asks := ?_, serves := ?_, positive := sound.positive, counted := later.counted,
           deleted := ?_, handled := ?_, once := ?_ }
  · show item.program.Asks _ item.log
    rw [goes, log]
    exact continues _
  · show ∀ entry ∈ item.log, _
    rw [log]
    exact List.forall_mem_append.mpr ⟨sound.serves, List.forall_mem_singleton.mpr serves⟩
  · show Deleted delivery.receipt item.log → _
    rw [Deleted, log]
    intro deleted
    rcases List.mem_append.mp deleted with earlier | last
    · exact later.deleted earlier
    · obtain ⟨rfl, answered⟩ := Sigma.mk.inj (List.mem_singleton.mp last)
      exact server.deletes choice _ _ state (eq_of_heq answered).symm
  · show subscribed item.log ≠ 0 → Deleted delivery.receipt item.log
    rw [Deleted, log]
    intro handled
    refine List.mem_append_left _ ?_
    rcases subscribed_answered delivery.item.log call
      (Action.exec (server.serve choice call) state).1 with same | ⟨⟨_, _, _, rfl⟩, -⟩
    · rw [same] at handled
      exact sound.handled handled
    · exact justified.1
  · show subscribed item.log ≤ 1
    rw [log]
    rcases subscribed_answered delivery.item.log call
      (Action.exec (server.serve choice call) state).1 with same | ⟨⟨_, _, _, rfl⟩, grown⟩
    · exact same ▸ sound.once
    · rw [grown, justified.2]

theorem step_dequeue {setup : Setup η} {topic : String} {choice : χ}
    (stepped : step server before (.dequeue setup topic choice) = some after) :
    server.Lawful before.server after.server ∧
      (after.deliveries = before.deliveries ∨ ∃ receipt,
        after.deliveries = before.deliveries ++ [.begin setup receipt] ∧
          server.received before.server receipt.address < receipt.rc ∧
            receipt.rc = server.received after.server receipt.address) := by
  have lawful := server.receives choice topic before.server
  have hands := server.hands choice topic before.server
  rw [step] at stepped
  rcases answered : Action.exec (server.receiveMessage choice topic) before.server with
    ⟨message | _ | receipt, last⟩
  all_goals
    rw [answered] at stepped lawful hands
    obtain rfl := Option.some.inj stepped
  · exact ⟨lawful, .inl rfl⟩
  · exact ⟨lawful, .inl rfl⟩
  · exact ⟨lawful, .inr ⟨receipt, rfl, (hands receipt rfl).2⟩⟩

/-- An answer leaves the handovers as they are. -/
theorem receipts_answer {index : Nat} {item : Item (Call.Answer (η := η)) Unit}
    {deliveries : List (Delivery η)} (found : deliveries[index]? = some delivery) :
    (deliveries.set index { delivery with item }).map Delivery.receipt =
      deliveries.map Delivery.receipt := by
  rw [List.map_set]
  obtain ⟨bound, rfl⟩ := List.getElem?_eq_some_iff.mp found
  refine List.ext_getElem (by simp) fun other inside outside => ?_
  rw [List.getElem_set]
  split
  · rename_i same
    subst same
    rw [List.getElem_map]
  · rfl

theorem State.Sound.dequeue (sound : before.Sound server) {setup : Setup η} {topic : String}
    {choice : χ} (stepped : step server before (.dequeue setup topic choice) = some after) :
    after.Sound server := by
  obtain ⟨lawful, kept | ⟨receipt, taken, newer, counted⟩⟩ := step_dequeue stepped
  · refine ⟨fun delivery member => ?_, ?_⟩
    · exact (sound.deliveries delivery (kept ▸ member)).mono lawful
    · rw [State.receipts, kept]
      exact sound.ordered
  · constructor
    · rw [taken]
      refine List.forall_mem_append.mpr ⟨fun delivery member =>
        (sound.deliveries delivery member).mono lawful, List.forall_mem_singleton.mpr ?_⟩
      exact
        { asks := receive_asks setup receipt
          serves := List.forall_mem_nil _
          positive := (show receipt.rc ≠ 0 by omega)
          counted := counted.le
          deleted := fun deleted => by cases deleted
          handled := fun handled => absurd rfl handled
          once := Nat.zero_le 1 }
    · rw [State.receipts, taken, List.map_append]
      refine List.pairwise_append.mpr ⟨sound.ordered, List.pairwise_singleton _ _, ?_⟩
      intro earlier listed later own same
      obtain rfl : later = receipt := List.mem_singleton.mp own
      obtain ⟨delivery, member, rfl⟩ := List.mem_map.mp listed
      have bound := (sound.deliveries delivery member).counted
      rw [same] at bound
      exact bound.trans_lt newer

theorem State.Sound.answer (sound : before.Sound server) {index : Nat} {choice : χ}
    (stepped : step server before (.answer index choice) = some after) : after.Sound server := by
  obtain ⟨delivery, item, call, resume, found, awaits, goes, log, rfl⟩ := step_answer stepped
  have lawful := server.serves choice call before.server
  constructor
  · intro other member
    rcases List.mem_or_eq_of_mem_set member with member | rfl
    · exact (sound.deliveries other member).mono lawful
    · exact (sound.deliveries delivery (List.mem_of_getElem? found)).answer awaits goes log
  · rw [State.receipts, receipts_answer found]
    exact sound.ordered

/-- What holds of every run holds after a step. -/
theorem State.Sound.step (sound : before.Sound server) {event : Event η χ}
    (stepped : RedisDelivery.step server before event = some after) : after.Sound server := by
  cases event with
  | dequeue setup topic choice => exact sound.dequeue stepped
  | answer index choice => exact sound.answer stepped

/-- A message that has been deleted has been handed over last to the one who has deleted it. -/
def State.Owned (server : Server η χ σ) (state : State η σ) : Prop :=
  ∀ delivery ∈ state.deliveries, Deleted delivery.receipt delivery.item.log →
    delivery.receipt.rc = server.received state.server delivery.receipt.address

/-- A message that is no longer in its queue is not counted again. -/
theorem Delivery.Sound.same_count {state later : σ} (sound : delivery.Sound server state)
    (lawful : server.Lawful state later) (deleted : Deleted delivery.receipt delivery.item.log) :
    server.received later delivery.receipt.address =
      server.received state delivery.receipt.address := by
  have positive := sound.positive
  have counted := sound.counted
  exact (lawful.gone _ (by omega) (sound.deleted deleted)).2

/-- Where runners go on in time, the last handover stays the one that has led to the deletion. -/
theorem State.Owned.step (sound : before.Sound server) (owned : before.Owned server)
    {event : Event η χ} (timely : Timely server before event)
    (stepped : RedisDelivery.step server before event = some after) : after.Owned server := by
  have kept : ∀ {later : σ}, server.Lawful before.server later → ∀ delivery ∈ before.deliveries,
      Deleted delivery.receipt delivery.item.log →
        delivery.receipt.rc = server.received later delivery.receipt.address := by
    intro later lawful delivery member deleted
    rw [(sound.deliveries delivery member).same_count lawful deleted]
    exact owned delivery member deleted
  cases event with
  | dequeue setup topic choice =>
      obtain ⟨lawful, same | ⟨receipt, taken, -⟩⟩ := step_dequeue stepped
      · exact fun delivery member => kept lawful delivery (same ▸ member)
      · intro delivery member deleted
        rw [taken] at member
        rcases List.mem_append.mp member with member | own
        · exact kept lawful delivery member deleted
        · obtain rfl := List.mem_singleton.mp own
          cases deleted
  | answer index choice =>
      obtain ⟨delivery, item, call, resume, found, awaits, goes, log, rfl⟩ := step_answer stepped
      have lawful := server.serves choice call before.server
      intro other member deleted
      rcases List.mem_or_eq_of_mem_set member with member | rfl
      · exact kept lawful other member deleted
      · show delivery.receipt.rc = server.received _ delivery.receipt.address
        rw [server.idle]
        exact timely delivery found

end Steps

/-! ## Runs -/

/-- Before anything has been handed over. -/
def State.initial (η : Type) (state : σ) : State η σ := ⟨state, []⟩

theorem sound_initial (state : σ) : (State.initial η state).Sound server :=
  ⟨List.forall_mem_nil _, List.Pairwise.nil⟩

section Runs

variable {server} {events : List (Event η χ)} {state : σ} {final : State η σ}

theorem sound_run (execution : (system server).run events (.initial η state) = some final) :
    final.Sound server := by
  have preserved : ∀ (before : State η σ) event after, before.Sound server →
      (system server).step before event = some after → after.Sound server :=
    fun _ _ _ sound stepped => State.Sound.step sound stepped
  exact System.invariant_of_run preserved (sound_initial server state) execution

theorem owned_run (timely : (system server).Along (Timely server) events (.initial η state))
    (execution : (system server).run events (.initial η state) = some final) :
    final.Owned server := by
  have preserved : ∀ (before : State η σ) event after,
      before.Sound server ∧ before.Owned server → Timely server before event →
        (system server).step before event = some after →
          after.Sound server ∧ after.Owned server :=
    fun _ _ _ kept timely stepped =>
      ⟨State.Sound.step kept.1 stepped, State.Owned.step kept.1 kept.2 timely stepped⟩
  exact (System.invariant_run preserved
    ⟨sound_initial server state, fun _ member => by cases member⟩ timely execution).2

/-- However often a message is handed over, each handover calls at most one handler, and only that
of the topic with what the message contains, after the message has left its queue for good. -/
theorem handled_gone (execution : (system server).run events (.initial η state) = some final)
    {delivery : Delivery η} (member : delivery ∈ final.deliveries) :
    subscribed delivery.item.log ≤ 1 ∧
      (∀ entry ∈ delivery.item.log, Serves delivery.setup delivery.receipt entry.1) ∧
      (subscribed delivery.item.log ≠ 0 →
        ¬ server.present final.server delivery.receipt.address) := by
  have sound := (sound_run execution).deliveries delivery member
  exact ⟨sound.once, sound.serves, fun handled => sound.deleted (sound.handled handled)⟩

/-- Where no runner goes on with a message that has been handed over again since, no message is
handled twice, neither by two deliveries nor by one, whatever fails and however many runners take
part. -/
theorem handled_once (timely : (system server).Along (Timely server) events (.initial η state))
    (execution : (system server).run events (.initial η state) = some final)
    {first second : Nat} {one other : Delivery η} (found : final.deliveries[first]? = some one)
    (placed : final.deliveries[second]? = some other)
    (same : one.receipt.address = other.receipt.address) (handled : subscribed one.item.log ≠ 0)
    (again : subscribed other.item.log ≠ 0) : first = second ∧ subscribed one.item.log = 1 := by
  have sound := sound_run execution
  have once := (sound.deliveries one (List.mem_of_getElem? found)).once
  refine ⟨?_, by omega⟩
  have owned := owned_run timely execution
  have counts : one.receipt.rc = other.receipt.rc := by
    have member := List.mem_of_getElem? found
    have present := List.mem_of_getElem? placed
    rw [owned one member ((sound.deliveries one member).handled handled),
      owned other present ((sound.deliveries other present).handled again), same]
  have ordered := List.pairwise_iff_getElem.mp sound.ordered
  obtain ⟨bound, rfl⟩ := List.getElem?_eq_some_iff.mp found
  obtain ⟨within, rfl⟩ := List.getElem?_eq_some_iff.mp placed
  simp only [State.receipts, List.length_map, List.getElem_map] at ordered
  rcases Nat.lt_trichotomy first second with less | equal | more
  · have later := ordered first second bound within less same
    omega
  · exact equal
  · have later := ordered second first within bound more same.symm
    omega

end Runs

/-! ## A message that is handed over again -/

/-- The queue of one message. -/
structure Shelf where
  present : Bool
  received : Nat

/-- The message. -/
def order : Address := ⟨"orders", "first"⟩

/-- What a call does to the message. -/
def Shelf.after (shelf : Shelf) : Call Unit → Shelf
  | .deleteMessage topic id =>
      if order = ⟨topic, id⟩ then { shelf with present := false } else shelf
  | _ => shelf

/-- Hand over the message. -/
def Shelf.hand (topic : String) (shelf : Shelf) : Except String (Option Receipt) × Shelf :=
  if topic = "orders" ∧ shelf.present = true then
    (.ok (some ⟨"orders", ⟨"first", some (.obj [])⟩, shelf.received + 1⟩),
      { shelf with received := shelf.received + 1 })
  else
    (.ok none, shelf)

def shelves : Queues Shelf where
  present shelf address := address = order ∧ shelf.present = true
  received shelf address := if address = order then shelf.received else 0

theorem lawful_hand (topic : String) (shelf : Shelf) :
    shelves.Lawful shelf (shelf.hand topic).2 := by
  rw [Shelf.hand]
  split
  · rename_i there
    constructor
    · intro address
      dsimp only [shelves]
      split <;> omega
    · intro address known absent
      dsimp only [shelves] at known absent ⊢
      by_cases same : address = order
      · exact absurd ⟨same, there.2⟩ absent
      · exact ⟨fun present => same present.1, by rw [if_neg same, if_neg same]⟩
  · exact ⟨fun _ => le_rfl, fun _ _ absent => ⟨absent, rfl⟩⟩

theorem lawful_after (call : Call Unit) (shelf : Shelf) :
    shelves.Lawful shelf (shelf.after call) := by
  have same : shelves.Lawful shelf shelf := ⟨fun _ => le_rfl, fun _ _ absent => ⟨absent, rfl⟩⟩
  cases call with
  | deleteMessage topic id =>
      rw [Shelf.after]
      split
      · exact ⟨fun _ => le_rfl, fun _ _ _ => ⟨fun present => Bool.noConfusion present.2, rfl⟩⟩
      · exact same
  | _ => exact same

theorem received_after (shelf : Shelf) (call : Call Unit) :
    (shelf.after call).received = shelf.received := by
  cases call with
  | deleteMessage topic id =>
      rw [Shelf.after]
      split <;> rfl
  | _ => rfl

/-- A server with one message, which grants everything. -/
def shelf : Server Unit Unit Shelf where
  toQueues := shelves
  receiveMessage _ topic := ExceptT.mk fun shelf => shelf.hand topic
  serve _ call := ExceptT.mk fun shelf => (granting false call, shelf.after call)
  receives _ topic state := lawful_hand topic state
  serves _ call state := lawful_after call state
  idle _ call state address := by
    show (if address = order then (state.after call).received else 0) = _
    rw [received_after]
    rfl
  hands _ topic state receipt answered := by
    change (state.hand topic).1 = .ok (some receipt) at answered
    show receipt.topic = topic ∧ shelves.received state receipt.address < receipt.rc ∧
      receipt.rc = shelves.received (state.hand topic).2 receipt.address
    rw [Shelf.hand] at answered ⊢
    split at answered
    · rename_i there
      rw [if_pos there]
      obtain rfl := Option.some.inj (Except.ok.inj answered)
      exact ⟨there.1.symm, Nat.lt_succ_self _, rfl⟩
    · cases Except.ok.inj answered
  deletes _ topic id state _ present := by
    obtain ⟨same, there⟩ := present
    change (if order = ⟨topic, id⟩ then { state with present := false } else state).present = true
      at there
    rw [if_pos same.symm] at there
    cases there

/-- An instance with a task for orders. -/
def clerk : Setup Unit :=
  { vacant with
    registry := Registry.empty.addNewTask { name := "orders", topic := "orders", subscribe := () } }

/-- The first runner stops before it has deleted the message, which the second one handles. -/
def handedAgain : List (Event Unit Unit) :=
  [.dequeue clerk "orders" (), .answer 0 (), .dequeue clerk "orders" (), .answer 1 (), .answer 1 (),
    .answer 1 (), .answer 1 (), .answer 1 ()]

theorem handedAgain_gone : ∃ final delivery,
    (system shelf).run handedAgain (.initial Unit ⟨true, 0⟩) = some final ∧
      final.deliveries[1]? = some delivery ∧ subscribed delivery.item.log = 1 ∧
        ¬ shelves.present final.server order := by
  obtain ⟨final, delivery, execution, found, handled, place⟩ : ∃ final delivery,
      (system shelf).run handedAgain (.initial Unit ⟨true, 0⟩) = some final ∧
        final.deliveries[1]? = some delivery ∧ subscribed delivery.item.log = 1 ∧
          delivery.receipt.address = order := ⟨_, _, rfl, rfl, rfl, rfl⟩
  obtain ⟨-, -, gone⟩ := handled_gone execution (List.mem_of_getElem? found)
  exact ⟨final, delivery, execution, found, handled, place ▸ gone (by omega)⟩

theorem handedAgain_timely :
    (system shelf).Along (Timely shelf) handedAgain (.initial Unit ⟨true, 0⟩) := by
  have last : ∀ {state : State Unit Shelf} {index : Nat} {delivery : Delivery Unit},
      state.deliveries[index]? = some delivery →
        delivery.receipt.rc = shelves.received state.server delivery.receipt.address →
          Timely shelf state (.answer index ()) := by
    intro state index delivery found counted other same
    exact Option.some.inj (found.symm.trans same) ▸ counted
  exact .cons trivial rfl <| .cons (last rfl rfl) rfl <| .cons trivial rfl <|
    .cons (last rfl rfl) rfl <| .cons (last rfl rfl) rfl <| .cons (last rfl rfl) rfl <|
      .cons (last rfl rfl) rfl <| .cons (last rfl rfl) rfl trivial

/-- Only the second runner has handled the message. -/
theorem handedAgain_once : ∃ final,
    (system shelf).run handedAgain (.initial Unit ⟨true, 0⟩) = some final ∧
      ∀ index delivery, final.deliveries[index]? = some delivery →
        delivery.receipt.address = order → subscribed delivery.item.log ≠ 0 →
          index = 1 ∧ subscribed delivery.item.log = 1 := by
  obtain ⟨final, second, execution, found, handled, place⟩ : ∃ final delivery,
      (system shelf).run handedAgain (.initial Unit ⟨true, 0⟩) = some final ∧
        final.deliveries[1]? = some delivery ∧ subscribed delivery.item.log = 1 ∧
          delivery.receipt.address = order := ⟨_, _, rfl, rfl, rfl, rfl⟩
  refine ⟨final, execution, fun index delivery placed same again => ?_⟩
  exact handled_once handedAgain_timely execution placed found (same.trans place.symm) again
    (by omega)

end RedisDelivery

end Steveo
