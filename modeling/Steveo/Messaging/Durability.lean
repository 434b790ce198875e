import Steveo.Messaging.Commitment
import Steveo.Messaging.Queues

/-!
# Messages that outlive their runners

An SQS queue hands a message over again as long as it keeps it.  The message leaves the queue when
the service carries out a request to delete it, or when it lapses: its retention period is over, or
it has been received too often and moves on to a dead-letter queue.  Any number of runners receive
from the same queues and may crash at any point.  Where every task waits to commit, a message that
has not lapsed leaves its queue only after a handler has resolved with its body.
-/

namespace Steveo

namespace Polling

variable {η : Type} {setup : Setup η}

/-! ## Where a runner has its messages from -/

/-- Every subscription and every handling is of a registered topic, and each message has been
handed over for its topic. -/
structure Sourced (setup : Setup η) (delivered : String → SqsMessage → Prop) (state : State) :
    Prop where
  registered : ∀ pass index subscription, state.subscription pass index = some subscription →
    setup.registry.registers subscription.topic = true
  received : ∀ pass index topic messages handled,
    state.subscription pass index = some ⟨topic, .receiving messages handled⟩ →
      ∀ message ∈ messages, delivered topic message
  handled : ∀ handling ∈ state.handlings,
    setup.registry.registers handling.topic = true ∧ delivered handling.topic handling.message ∧
      handling.payload = handling.message.body.getD .null

/-- A batch is handed over as it has been delivered. -/
def Fits (delivered : String → SqsMessage → Prop) (before : State) : Event → Prop
  | .dequeue pass index (some messages) => ∀ topic work,
      before.subscription pass index = some ⟨topic, work⟩ →
        ∀ message ∈ messages, delivered topic message
  | _ => True

section Sources

variable {delivered : String → SqsMessage → Prop} {before after : State}

/-- Going on with a topic keeps the sources, if the messages still to be handled have one. -/
theorem Sourced.setWork (sourced : Sourced setup delivered before) (pass index : Nat) (work : Work)
    (sources : ∀ messages handled, work = .receiving messages handled → ∀ topic old,
      before.subscription pass index = some ⟨topic, old⟩ → ∀ message ∈ messages,
        delivered topic message) :
    Sourced setup delivered (before.setWork pass index work) := by
  refine ⟨fun other position subscription found => ?_,
    fun other position topic messages handled found => ?_, sourced.handled⟩
  · rw [subscription_setWork] at found
    split at found
    · obtain ⟨old, present, rfl⟩ := Option.map_eq_some_iff.mp found
      exact sourced.registered pass index old present
    · exact sourced.registered other position subscription found
  · rw [subscription_setWork] at found
    split at found
    · obtain ⟨old, present, same⟩ := Option.map_eq_some_iff.mp found
      obtain ⟨rfl, worked⟩ := Subscription.mk.inj same
      exact sources messages handled worked old.topic old.work present
    · exact sourced.received other position topic messages handled found

theorem Sourced.congr (sourced : Sourced setup delivered before) (passes : after.passes =
    before.passes) (handlings : after.handlings = before.handlings) :
    Sourced setup delivered after := by
  refine ⟨fun pass index subscription found => ?_,
    fun pass index topic messages handled found => ?_,
    ?_⟩
  · rw [State.subscription, passes] at found
    exact sourced.registered pass index subscription found
  · rw [State.subscription, passes] at found
    exact sourced.received pass index topic messages handled found
  · rw [handlings]
    exact sourced.handled

theorem Sourced.poll (sourced : Sourced setup delivered before) :
    Sourced setup delivered before.poll := by
  rw [State.poll]
  split
  · exact sourced.congr rfl rfl
  · exact sourced.congr rfl rfl

/-- A new pass is over registered topics. -/
theorem Sourced.process (sourced : Sourced setup delivered before) {subscriptions : List String}
    (known : subscriptions.all setup.registry.registers = true) :
    Sourced setup delivered (before.process subscriptions) := by
  rw [State.process]
  split
  · exact sourced.poll
  · split
    · exact sourced.poll
    · have added : ∀ pass index subscription,
          (before.passes ++ [subscriptions.map fun topic => ⟨topic, .waiting⟩])[pass]?.bind
              (fun subscriptions => subscriptions[index]?) = some subscription →
            before.subscription pass index = some subscription ∨
              ∃ topic ∈ subscriptions, subscription = ⟨topic, .waiting⟩ := by
        intro pass index subscription found
        rcases Nat.lt_or_ge pass before.passes.length with early | late
        · rw [List.getElem?_append_left early] at found
          exact .inl found
        · rw [List.getElem?_append_right late] at found
          obtain ⟨whole, present, placed⟩ := Option.bind_eq_some_iff.mp found
          obtain rfl := List.mem_singleton.mp (List.mem_of_getElem? present)
          obtain ⟨topic, listed, rfl⟩ := List.mem_map.mp (List.mem_of_getElem? placed)
          exact .inr ⟨topic, listed, rfl⟩
      refine ⟨fun pass index subscription found => ?_,
        fun pass index topic messages handled found => ?_, sourced.handled⟩
      · rcases added pass index subscription found with old | ⟨topic, listed, rfl⟩
        · exact sourced.registered pass index subscription old
        · exact List.all_eq_true.mp known topic listed
      · rcases added pass index _ found with old | ⟨other, -, same⟩
        · exact sourced.received pass index topic messages handled old
        · cases (Subscription.mk.inj same).2

/-- A pass that has finished takes its topics away. -/
theorem Sourced.eraseIdx (sourced : Sourced setup delivered before) (pass : Nat) :
    Sourced setup delivered { before with passes := before.passes.eraseIdx pass } := by
  have kept : ∀ other index subscription,
      State.subscription { before with passes := before.passes.eraseIdx pass } other index =
        some subscription → ∃ earlier, before.subscription earlier index = some subscription := by
    intro other index subscription found
    rw [State.subscription, List.getElem?_eraseIdx] at found
    split at found
    · exact ⟨other, found⟩
    · exact ⟨other + 1, found⟩
  refine ⟨fun other index subscription found => ?_,
    fun other index topic messages handled found => ?_, sourced.handled⟩
  · obtain ⟨earlier, present⟩ := kept other index subscription found
    exact sourced.registered earlier index subscription present
  · obtain ⟨earlier, present⟩ := kept other index _ found
    exact sourced.received earlier index topic messages handled present

/-- A message that is taken from a batch is handled under its topic, with its body. -/
theorem Sourced.take (sourced : Sourced setup delivered before) {pass index position : Nat}
    {topic : String} {messages : List SqsMessage} {handled : List Nat} {message : SqsMessage}
    (found : before.subscription pass index = some ⟨topic, .receiving messages handled⟩)
    (taken : messages[position]? = some message) :
    Sourced setup delivered (takeMessage setup before pass index topic message
      (messages.eraseIdx position) handled) := by
  have sources := sourced.received pass index topic messages handled found
  have longer : Sourced setup delivered { before with
      handlings := before.handlings ++ [⟨topic, message.body.getD .null, message,
        entrance setup before.manager message⟩] } := by
    refine ⟨sourced.registered, sourced.received, fun handling member => ?_⟩
    rcases List.mem_append.mp member with known | new
    · exact sourced.handled handling known
    · obtain rfl := List.mem_singleton.mp new
      exact ⟨sourced.registered pass index _ found, sources message (List.mem_of_getElem? taken),
        rfl⟩
  refine longer.setWork pass index _ fun listed others same other old present received member => ?_
  obtain ⟨rfl, -⟩ := Work.receiving.inj same
  obtain ⟨rfl, -⟩ := Subscription.mk.inj (Option.some.inj (found.symm.trans present))
  exact sources received (List.mem_of_mem_eraseIdx member)

/-- Without middleware every event keeps the sources, if what is handed over has one. -/
theorem sourced_step (plain : setup.hasMiddleware = false) {event : Event}
    (sourced : Sourced setup delivered before) (fits : Fits delivered before event)
    (stepped : step setup before event = some after) : Sourced setup delivered after := by
  have finish : ∀ pass index, Sourced setup delivered (before.setWork pass index .finished) :=
    fun pass index => sourced.setWork pass index .finished fun _ _ same => by cases same
  cases step_turn stepped with
  | stop | pause | resume => exact sourced.congr rfl rfl
  | forceTerminate _ => exact sourced.congr rfl rfl
  | start known => exact sourced.process known
  | tick _ known =>
      have stopped : Sourced setup delivered { before with timer := false } :=
        sourced.congr rfl rfl
      exact stopped.process known
  | @fetch pass index _ _ =>
      refine sourced.setWork pass index _ fun messages handled same => ?_
      split at same <;> cases same
  | @dequeue pass index _ messages _ =>
      cases messages with
      | none => exact finish pass index
      | some messages =>
          refine sourced.setWork pass index _ fun listed handled same topic old found => ?_
          obtain ⟨rfl, -⟩ := Work.receiving.inj same
          exact fits topic old found
  | take found taken => exact sourced.take found taken
  | begin _ middleware _ => cases plain.symm.trans middleware
  | @abandon pass index => exact finish pass index
  | @complete pass index => exact finish pass index
  | @close pass => exact (sourced.eraseIdx pass).poll
  | @answer _ _ handling _ found _ =>
      refine ⟨sourced.registered, sourced.received, fun other member => ?_⟩
      rcases List.mem_or_eq_of_mem_set member with known | rfl
      · exact sourced.handled other known
      · exact sourced.handled handling (List.mem_of_getElem? found)

/-- More messages may have been handed over. -/
theorem Sourced.mono {more : String → SqsMessage → Prop} (sourced : Sourced setup delivered before)
    (kept : ∀ topic message, delivered topic message → more topic message) :
    Sourced setup more before where
  registered := sourced.registered
  received pass index topic messages handled found message member :=
    kept topic message (sourced.received pass index topic messages handled found message member)
  handled handling member :=
    let ⟨known, source, body⟩ := sourced.handled handling member
    ⟨known, kept _ _ source, body⟩

theorem sourced_initial : Sourced setup delivered .initial := by
  refine ⟨fun pass index subscription found => ?_,
    fun pass index topic messages handled found => ?_, fun handling member => ?_⟩
  · simp [State.subscription, State.initial] at found
  · simp [State.subscription, State.initial] at found
  · cases member

/-! ## What a runner keeps -/

/-- The handling of a number keeps its message, and what has been done stays done. -/
structure Grows (before after : State) : Prop where
  handlings : ∀ (id : Nat) (handling : Handling), before.handlings[id]? = some handling →
    ∃ later : Handling, after.handlings[id]? = some later ∧ later.topic = handling.topic ∧
      later.message = handling.message ∧ later.payload = handling.payload
  log : before.log ⊆ after.log

theorem Grows.refl (state : State) : Grows state state :=
  ⟨fun _ handling found => ⟨handling, found, rfl, rfl, rfl⟩, List.Subset.refl _⟩

theorem grows_step (plain : setup.hasMiddleware = false) {event : Event}
    (stepped : step setup before event = some after) : Grows before after := by
  have same : ∀ {middle : State}, middle.handlings = before.handlings →
      before.log ⊆ middle.log → Grows before middle := by
    intro middle handlings log
    exact ⟨fun id handling found => ⟨handling, handlings ▸ found, rfl, rfl, rfl⟩, log⟩
  cases step_effect stepped with
  | stop => exact same rfl (List.subset_append_left _ _)
  | pause | resume => exact same rfl (List.Subset.refl _)
  | quiet manager handlings log => exact same handlings (log ▸ List.Subset.refl _)
  | taken handling entered manager handlings log =>
      refine ⟨fun id known found => ⟨known, ?_, rfl, rfl, rfl⟩, (log ▸ List.Subset.refl _)⟩
      rw [handlings, List.getElem?_append_left (List.getElem?_eq_some_iff.mp found).1]
      exact found
  | begun _ middleware _ => cases plain.symm.trans middleware
  | @answered id fulfilled handling next found answers =>
      refine ⟨fun other known present => ?_, List.subset_append_left _ _⟩
      by_cases here : id = other
      · subst here
        obtain rfl := Option.some.inj (found.symm.trans present)
        refine ⟨{ handling with stage := next.1 }, ?_, rfl, rfl, rfl⟩
        exact List.getElem?_set_self (List.getElem?_eq_some_iff.mp found).1
      · exact ⟨known, (List.getElem?_set_ne here).trans present, rfl, rfl, rfl⟩

end Sources

/-! ## The queues -/

/-- The queue of a topic. -/
def Setup.queue (setup : Setup η) (topic : String) : String :=
  if setup.registry.fifo topic then topic ++ ".fifo" else topic

/-- A message as it has been sent. -/
structure Queued where
  queue : String
  /-- The parsed body; `none` when it is not JSON. -/
  body : Option Json

/-- What can be seen of the queues. -/
structure Queues (σ : Type) where
  /-- All messages that have been sent; a message is known by its number. -/
  sent : σ → List Queued
  /-- A message is in its queue. -/
  present : σ → Nat → Prop
  /-- The service has taken a message from its queue by itself, or has not kept a duplicate. -/
  lapsed : σ → Nat → Prop
  /-- The message that a receipt handle has been given out for. -/
  receipts : σ → String → Option Nat

/-- The service forgets nothing that it has been sent or given out, and a message that is not
deleted leaves its queue only when it lapses. -/
structure Queues.Lawful {σ : Type} (queues : Queues σ) (more : List Queued) (deleted : Nat → Prop)
    (before after : σ) : Prop where
  sent : queues.sent after = queues.sent before ++ more
  receipts : ∀ handle number, queues.receipts before handle = some number →
    queues.receipts after handle = some number
  lapsed : ∀ number, queues.lapsed before number → queues.lapsed after number
  kept : ∀ number, queues.present before number →
    queues.present after number ∨ queues.lapsed after number ∨ deleted number

/-- A message has been handed over from a queue. -/
def Queues.Delivered {σ : Type} (queues : Queues σ) (state : σ) (queue : String)
    (received : SqsMessage) : Prop :=
  ∃ handle number message, received.receiptHandle = some handle ∧
    queues.receipts state handle = some number ∧ (queues.sent state)[number]? = some message ∧
      message.queue = queue ∧ received.body = message.body

/-- A queue service. -/
structure Server (χ σ : Type) extends Queues σ where
  sendMessage : χ → Queued → σ → σ
  receiveMessage : χ → String → σ → List SqsMessage × σ
  deleteMessage : χ → String → σ → σ
  /-- What the service does by itself as time passes. -/
  pass : χ → σ → σ
  sends : ∀ choice message state,
    toQueues.Lawful [message] (fun _ => False) state (sendMessage choice message state)
  arrives : ∀ choice message state,
    present (sendMessage choice message state) (sent state).length ∨
      lapsed (sendMessage choice message state) (sent state).length
  receives : ∀ choice queue state,
    toQueues.Lawful [] (fun _ => False) state (receiveMessage choice queue state).2
  hands : ∀ choice queue state, ∀ received ∈ (receiveMessage choice queue state).1,
    toQueues.Delivered (receiveMessage choice queue state).2 queue received
  deletes : ∀ choice handle state,
    toQueues.Lawful [] (fun number => receipts state handle = some number) state
      (deleteMessage choice handle state)
  passes : ∀ choice state, toQueues.Lawful [] (fun _ => False) state (pass choice state)

/-- A service and the runners that receive from it. -/
structure Service (σ : Type) where
  server : σ
  runners : List State

namespace Service

variable {χ σ : Type}

/-- What can happen.  A runner that has crashed takes no more turns. -/
inductive Event (χ : Type)
  | send (choice : χ) (message : Queued)
  | launch
  | turn (runner : Nat) (event : Polling.Event)
  /-- A queue hands over some of its messages, perhaps not for the first time. -/
  | deliver (runner pass index : Nat) (choice : χ)
  /-- The service carries out a request to delete a message. -/
  | delete (runner id : Nat) (choice : χ)
  | pass (choice : χ)

/-- Whether messages are handed over in an event of a runner. -/
def handsOver : Polling.Event → Bool
  | .dequeue _ _ (some _) => true
  | _ => false

variable (setup : Setup η) (server : Server χ σ)

/-- The next state, if the event can happen. -/
def step (service : Service σ) : Event χ → Option (Service σ)
  | .send choice message =>
      some { service with server := server.sendMessage choice message service.server }
  | .launch => some { service with runners := service.runners ++ [.initial] }
  | .turn runner event =>
      if handsOver event then none
      else
        service.runners[runner]?.bind fun state =>
          (Polling.step setup state event).map fun after =>
            { service with runners := service.runners.set runner after }
  | .deliver runner pass index choice =>
      service.runners[runner]?.bind fun state =>
        (state.subscription pass index).bind fun subscription =>
          let received :=
            server.receiveMessage choice (setup.queue subscription.topic) service.server
          (Polling.step setup state (.dequeue pass index (some received.1))).map fun after =>
            { server := received.2
              runners := service.runners.set runner after }
  | .delete runner id choice =>
      service.runners[runner]?.bind fun state =>
        state.handlings[id]?.bind fun handling =>
          handling.message.receiptHandle.bind fun handle =>
            if .deed id .delete ∈ state.log then
              some { service with server := server.deleteMessage choice handle service.server }
            else none
  | .pass choice => some { service with server := server.pass choice service.server }

/-- A service and its runners. -/
def system : System (Service σ) (Event χ) := ⟨step setup server⟩

/-- A handler for the queue of a message has resolved with its body. -/
def Handled (service : Service σ) (number : Nat) (message : Queued) : Prop :=
  ∃ state ∈ service.runners, ∃ (id : Nat) (handling : Handling) (handle : String),
    state.handlings[id]? = some handling ∧ .deed id .resolved ∈ state.log ∧
      handling.message.receiptHandle = some handle ∧
        server.receipts service.server handle = some number ∧
          setup.queue handling.topic = message.queue ∧ message.body = some handling.payload

/-- What the runners do is in order, and a message that is not there any more has been handled or
has lapsed. -/
structure Accounted (service : Service σ) : Prop where
  orderly : ∀ state ∈ service.runners, Orderly setup state
  sourced : ∀ state ∈ service.runners,
    Sourced setup (fun topic => server.Delivered service.server (setup.queue topic)) state
  accounted : ∀ (number : Nat) (message : Queued),
    (server.sent service.server)[number]? = some message →
      server.present service.server number ∨ server.lapsed service.server number ∨
        service.Handled setup server number message

section Accounts

variable {setup server} {service after : Service σ} {more : List Queued} {deleted : Nat → Prop}

/-- What has been delivered stays delivered. -/
theorem delivered_later {before later : σ} (lawful : server.Lawful more deleted before later)
    {queue : String} {received : SqsMessage} (delivered : server.Delivered before queue received) :
    server.Delivered later queue received := by
  obtain ⟨handle, number, message, named, issued, placed, same, body⟩ := delivered
  refine ⟨handle, number, message, named, lawful.receipts handle number issued, ?_, same, body⟩
  rw [lawful.sent, List.getElem?_append_left (List.getElem?_eq_some_iff.mp placed).1]
  exact placed

theorem Handled.later {number : Nat} {message : Queued}
    (handled : service.Handled setup server number message)
    (issued : ∀ handle number, server.receipts service.server handle = some number →
      server.receipts after.server handle = some number)
    (grown : ∀ state ∈ service.runners, ∃ later ∈ after.runners, Grows state later) :
    after.Handled setup server number message := by
  obtain ⟨state, member, id, handling, handle, found, resolved, named, given, queue, body⟩ :=
    handled
  obtain ⟨later, listed, grows⟩ := grown state member
  obtain ⟨kept, present, topic, received, payload⟩ := grows.handlings id handling found
  refine ⟨later, listed, id, kept, handle, present, grows.log resolved, ?_,
    issued handle number given, ?_, ?_⟩
  · rw [received]
    exact named
  · rw [topic]
    exact queue
  · rw [payload]
    exact body

/-- The service changes lawfully and the runners stay, when what is deleted has been handled and
what is sent has arrived. -/
theorem Accounted.changed (accounted : service.Accounted setup server) {later : σ}
    (lawful : server.Lawful more deleted service.server later)
    (handled : ∀ number message, (server.sent service.server)[number]? = some message →
      deleted number → service.Handled setup server number message)
    (arrived : ∀ number message, (server.sent service.server).length ≤ number →
      (server.sent later)[number]? = some message →
        server.present later number ∨ server.lapsed later number) :
    Accounted setup server { service with server := later } := by
  refine ⟨accounted.orderly, fun state member => ?_, fun number message sent => ?_⟩
  · exact (accounted.sourced state member).mono fun topic received => delivered_later lawful
  have stays (handled : service.Handled setup server number message) :
      Handled setup server { service with server := later } number message :=
    handled.later lawful.receipts fun state member => ⟨state, member, .refl state⟩
  rcases Nat.lt_or_ge number (server.sent service.server).length with old | new
  · have known : (server.sent service.server)[number]? = some message := by
      rwa [lawful.sent, List.getElem?_append_left old] at sent
    rcases accounted.accounted number message known with present | lapsed | already
    · rcases lawful.kept number present with present | lapsed | gone
      · exact .inl present
      · exact .inr (.inl lapsed)
      · exact .inr (.inr (stays (handled number message known gone)))
    · exact .inr (.inl (lawful.lapsed number lapsed))
    · exact .inr (.inr (stays already))
  · exact (arrived number message new sent).imp_right .inl

/-- A service that is sent nothing and deletes nothing. -/
theorem Accounted.idle (accounted : service.Accounted setup server) {later : σ}
    (lawful : server.Lawful [] (fun _ => False) service.server later) :
    Accounted setup server { service with server := later } := by
  refine accounted.changed lawful (fun _ _ _ gone => gone.elim)
    fun number message new sent => ?_
  rw [lawful.sent, List.append_nil, List.getElem?_eq_none new] at sent
  cases sent

/-- A turn of one runner lets the runners grow. -/
theorem grows_set {runner : Nat} {before later : State}
    (found : service.runners[runner]? = some before) (grows : Grows before later) :
    ∀ state ∈ service.runners, ∃ next ∈ service.runners.set runner later, Grows state next := by
  intro state member
  obtain ⟨bound, -⟩ := List.getElem?_eq_some_iff.mp found
  obtain ⟨index, placed⟩ := List.mem_iff_getElem?.mp member
  by_cases here : runner = index
  · subst here
    obtain rfl := Option.some.inj (found.symm.trans placed)
    exact ⟨later, List.mem_set bound later, grows⟩
  · exact ⟨state, List.mem_of_getElem? ((List.getElem?_set_ne here).trans placed), .refl state⟩

/-- A turn of a runner keeps the accounts. -/
theorem Accounted.turn (accounted : service.Accounted setup server)
    (plain : setup.hasMiddleware = false) {runner : Nat} {before later : State}
    (found : service.runners[runner]? = some before) {event : Polling.Event}
    (fits : Fits (fun topic => server.Delivered service.server (setup.queue topic)) before event)
    (stepped : Polling.step setup before event = some later) :
    Accounted setup server { service with runners := service.runners.set runner later } := by
  have member := List.mem_of_getElem? found
  refine ⟨fun state listed => ?_, fun state listed => ?_, fun number message sent => ?_⟩
  · rcases List.mem_or_eq_of_mem_set listed with known | rfl
    · exact accounted.orderly state known
    · exact orderly_step (accounted.orderly before member) stepped
  · rcases List.mem_or_eq_of_mem_set listed with known | rfl
    · exact accounted.sourced state known
    · exact sourced_step plain (accounted.sourced before member) fits stepped
  · refine (accounted.accounted number message sent).imp_right (Or.imp_right fun handled => ?_)
    exact handled.later (fun _ _ same => same) (grows_set found (grows_step plain stepped))

/-- A request to delete a message is made after a handler has resolved with its body. -/
theorem Accounted.handled_of_deletion (accounted : service.Accounted setup server)
    (waits : ∀ topic, setup.registry.registers topic = true → setup.waitsToCommit topic = true)
    {state : State} (member : state ∈ service.runners) {id : Nat} {handling : Handling}
    (found : state.handlings[id]? = some handling) (asked : .deed id .delete ∈ state.log)
    {handle : String} {number : Nat} (named : handling.message.receiptHandle = some handle)
    (issued : server.receipts service.server handle = some number) {message : Queued}
    (sent : (server.sent service.server)[number]? = some message) :
    service.Handled setup server number message := by
  have orderly := accounted.orderly state member
  obtain ⟨registered, delivered, payload⟩ :=
    (accounted.sourced state member).handled handling (List.mem_of_getElem? found)
  have kept := orderly.kept id handling found (waits _ registered)
  obtain ⟨earlier, later, split⟩ := List.append_of_mem asked
  have resolved := kept.deleted earlier _ later split rfl
  obtain ⟨other, same, origin, known, given, placed, queue, parsed⟩ := delivered
  obtain rfl := Option.some.inj (named.symm.trans known)
  obtain rfl := Option.some.inj (issued.symm.trans given)
  obtain rfl := Option.some.inj (sent.symm.trans placed)
  refine ⟨state, member, id, handling, handle, found, ?_, named, issued, queue.symm, ?_⟩
  · rw [split]
    exact List.mem_append_left _ resolved
  · obtain ⟨_, present, -, read⟩ := orderly.reached id _ asked
    obtain rfl := Option.some.inj (found.symm.trans present)
    obtain ⟨body, parses⟩ := Option.ne_none_iff_exists'.mp read
    rw [payload, ← parsed, parses]
    rfl

/-- A runner that has just been launched has done nothing. -/
theorem Accounted.launch (accounted : service.Accounted setup server) :
    Accounted setup server { service with runners := service.runners ++ [.initial] } := by
  refine ⟨fun state member => ?_, fun state member => ?_, fun number message sent => ?_⟩
  · rcases List.mem_append.mp member with known | new
    · exact accounted.orderly state known
    · obtain rfl := List.mem_singleton.mp new
      exact orderly_initial
  · rcases List.mem_append.mp member with known | new
    · exact accounted.sourced state known
    · obtain rfl := List.mem_singleton.mp new
      exact sourced_initial
  · refine (accounted.accounted number message sent).imp_right (Or.imp_right fun handled => ?_)
    exact handled.later (fun _ _ same => same)
      fun state member => ⟨state, List.mem_append_left _ member, .refl state⟩

theorem Accounted.step (accounted : service.Accounted setup server)
    (plain : setup.hasMiddleware = false)
    (waits : ∀ topic, setup.registry.registers topic = true → setup.waitsToCommit topic = true)
    {event : Event χ} (stepped : (system setup server).step service event = some after) :
    after.Accounted setup server := by
  cases event with
  | send choice message =>
      obtain rfl := Option.some.inj stepped
      have lawful := server.sends choice message service.server
      refine accounted.changed lawful (fun _ _ _ gone => gone.elim)
        fun number other new sent => ?_
      have bound := (List.getElem?_eq_some_iff.mp sent).1
      rw [lawful.sent, List.length_append, List.length_singleton] at bound
      obtain rfl : number = (server.sent service.server).length := by omega
      exact server.arrives choice message service.server
  | launch =>
      obtain rfl := Option.some.inj stepped
      exact accounted.launch
  | turn runner event =>
      simp only [system, Service.step, Option.ite_none_left_eq_some, Bool.not_eq_true] at stepped
      obtain ⟨quiet, moved⟩ := stepped
      obtain ⟨state, found, turned⟩ := Option.bind_eq_some_iff.mp moved
      obtain ⟨later, ran, rfl⟩ := Option.map_eq_some_iff.mp turned
      refine accounted.turn plain found ?_ ran
      cases event with
      | dequeue pass index messages =>
          cases messages with
          | none => trivial
          | some messages => cases quiet
      | _ => trivial
  | deliver runner pass index choice =>
      obtain ⟨state, found, moved⟩ := Option.bind_eq_some_iff.mp stepped
      obtain ⟨subscription, subscribed, turned⟩ := Option.bind_eq_some_iff.mp moved
      obtain ⟨later, ran, rfl⟩ := Option.map_eq_some_iff.mp turned
      have received := accounted.idle
        (server.receives choice (setup.queue subscription.topic) service.server)
      refine received.turn plain found ?_ ran
      intro topic work known message member
      obtain rfl := Option.some.inj (subscribed.symm.trans known)
      exact server.hands choice _ service.server message member
  | delete runner id choice =>
      obtain ⟨state, found, moved⟩ := Option.bind_eq_some_iff.mp stepped
      obtain ⟨handling, placed, addressed⟩ := Option.bind_eq_some_iff.mp moved
      obtain ⟨handle, named, carried⟩ := Option.bind_eq_some_iff.mp addressed
      obtain ⟨asked, same⟩ := Option.ite_none_right_eq_some.mp carried
      obtain rfl := Option.some.inj same
      have lawful := server.deletes choice handle service.server
      refine accounted.changed lawful (fun number message sent issued => ?_)
        fun number message new sent => ?_
      · exact accounted.handled_of_deletion waits (List.mem_of_getElem? found) placed asked
          named issued sent
      · rw [lawful.sent, List.append_nil, List.getElem?_eq_none new] at sent
        cases sent
  | pass choice =>
      obtain rfl := Option.some.inj stepped
      exact accounted.idle (server.passes choice service.server)

/-- Where every task waits to commit, a message that has left its queue has been handled unless it
has lapsed: in every run, with any number of runners that may crash at any point. -/
theorem queues_lose_nothing (plain : setup.hasMiddleware = false)
    (waits : ∀ topic, setup.registry.registers topic = true → setup.waitsToCommit topic = true)
    {start : σ} (unused : server.sent start = []) {events : List (Event χ)} {final : Service σ}
    (execution : (system setup server).run events ⟨start, []⟩ = some final) {number : Nat}
    {message : Queued} (sent : (server.sent final.server)[number]? = some message) :
    server.present final.server number ∨ server.lapsed final.server number ∨
      final.Handled setup server number message := by
  have started : Accounted setup server ⟨start, []⟩ := ⟨by simp, by simp, by simp [unused]⟩
  have kept : final.Accounted setup server := System.invariant_of_run
    (fun _ _ _ accounted stepped => Accounted.step accounted plain waits stepped) started
    execution
  exact kept.accounted number message sent

end Accounts

/-- A service that can show its state. -/
structure Shelf where
  sent : List Queued
  present : List Nat
  lapsed : List Nat
  /-- The receipt handles, each for a message. -/
  issued : List (String × Nat)

/-- Hand over a message under a receipt handle, if it is in the queue and the handle is new. -/
def Shelf.receive (receipt : String × Nat) (queue : String) (shelf : Shelf) :
    List SqsMessage × Shelf :=
  match shelf.sent[receipt.2]? with
  | some message =>
      if receipt.2 ∈ shelf.present ∧ message.queue = queue ∧
          shelf.issued.lookup receipt.1 = none then
        ([⟨message.body, some receipt.1⟩], { shelf with issued := shelf.issued ++ [receipt] })
      else ([], shelf)
  | none => ([], shelf)

/-- A service that hands over the message of the choice, or lets it lapse. -/
def shelves : Server (String × Nat) Shelf where
  sent := Shelf.sent
  present shelf number := number ∈ shelf.present
  lapsed shelf number := number ∈ shelf.lapsed
  receipts shelf handle := shelf.issued.lookup handle
  sendMessage _ message shelf :=
    { shelf with sent := shelf.sent ++ [message], present := shelf.present ++ [shelf.sent.length] }
  receiveMessage := Shelf.receive
  deleteMessage _ handle shelf :=
    { shelf with
      present := shelf.present.filter fun number => shelf.issued.lookup handle ≠ some number }
  pass receipt shelf :=
    { shelf with
      present := shelf.present.filter (· ≠ receipt.2)
      lapsed := shelf.lapsed ++ [receipt.2] }
  sends _ _ _ := ⟨rfl, fun _ _ same => same, fun _ same => same,
    fun _ there => .inl (List.mem_append_left _ there)⟩
  arrives _ _ _ := .inl (List.mem_append_right _ (List.mem_singleton_self _))
  receives receipt queue shelf := by
    rw [Shelf.receive]
    split
    · split
      · refine ⟨(List.append_nil _).symm, fun handle number known => ?_, fun _ same => same,
          fun _ there => .inl there⟩
        have same : shelf.issued.lookup handle = some number := known
        dsimp only
        rw [List.lookup_append, same]
        rfl
      · exact ⟨(List.append_nil _).symm, fun _ _ same => same, fun _ same => same,
          fun _ there => .inl there⟩
    · exact ⟨(List.append_nil _).symm, fun _ _ same => same, fun _ same => same,
        fun _ there => .inl there⟩
  hands receipt queue shelf received member := by
    obtain ⟨handle, number⟩ := receipt
    rw [Shelf.receive] at member ⊢
    split at member
    · rename_i message placed
      split at member
      · rename_i offered
        rw [if_pos offered]
        obtain rfl := List.mem_singleton.mp member
        refine ⟨handle, number, message, rfl, ?_, placed, offered.2.1, rfl⟩
        dsimp only
        rw [List.lookup_append, offered.2.2]
        simp
      · cases member
    · cases member
  deletes _ handle shelf := by
    refine ⟨(List.append_nil _).symm, fun _ _ same => same, fun _ same => same,
      fun number there => ?_⟩
    by_cases named : shelf.issued.lookup handle = some number
    · exact .inr (.inr named)
    · exact .inl (List.mem_filter.mpr ⟨there, decide_eq_true named⟩)
  passes receipt shelf := by
    refine ⟨(List.append_nil _).symm, fun _ _ same => same,
      fun _ same => List.mem_append_left _ same, fun other there => ?_⟩
    by_cases named : other = receipt.2
    · exact .inr (.inl (List.mem_append_right _ (List.mem_singleton.mpr named)))
    · exact .inl (List.mem_filter.mpr ⟨there, decide_eq_true named⟩)

/-- An instance whose only task waits to commit. -/
def patient : Setup Unit := { orders with registry := Registry.empty.addNewTask waitingTask }

/-- The first runner crashes while it handles the message, which is handed over once more. -/
def comeback : List (Event (String × Nat)) :=
  [.send ("", 0) ⟨"orders", some (.obj [])⟩, .launch, .turn 0 (.start ["orders"]),
    .turn 0 (.fetch 0 0), .deliver 0 0 0 ("first", 0), .turn 0 (.take 0 0 0),
    .turn 0 (.answer 0 true), .launch, .turn 1 (.start ["orders"]), .turn 1 (.fetch 0 0),
    .deliver 1 0 0 ("second", 0), .turn 1 (.take 0 0 0), .turn 1 (.answer 0 true),
    .turn 1 (.answer 0 true), .delete 1 0 ("", 0)]

/-- The message has left its queue as it has been handled. -/
theorem comeback_loses_nothing :
    ∃ final, (system patient shelves).run comeback ⟨⟨[], [], [], []⟩, []⟩ = some final ∧
      final.server.present = [] ∧ final.server.lapsed = [] ∧
        final.Handled patient shelves 0 ⟨"orders", some (.obj [])⟩ := by
  obtain ⟨final, execution, gone, kept, sent⟩ : ∃ final : Service Shelf,
      (system patient shelves).run comeback ⟨⟨[], [], [], []⟩, []⟩ = some final ∧
        final.server.present = [] ∧ final.server.lapsed = [] ∧
          final.server.sent[0]? = some ⟨"orders", some (.obj [])⟩ := ⟨_, rfl, rfl, rfl, rfl⟩
  refine ⟨final, execution, gone, kept, ?_⟩
  have waits : ∀ topic, patient.registry.registers topic = true →
      patient.waitsToCommit topic = true := by
    intro topic known
    obtain ⟨task, found⟩ := Registry.registers_iff.mp known
    simp only [patient, Registry.getTask_eq_own, Registry.registeredTasks_addNewTask] at found
    split at found
    · rename_i same
      subst same
      rfl
    · cases found
  rcases queues_lose_nothing rfl waits rfl execution sent with present | lapsed | handled
  · exact absurd (gone ▸ present : 0 ∈ []) List.not_mem_nil
  · exact absurd (kept ▸ lapsed : 0 ∈ []) List.not_mem_nil
  · exact handled

end Service

end Polling

end Steveo
