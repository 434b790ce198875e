import Steveo.Library.Execution
import Steveo.Messaging.Runner
import Steveo.Runtime.Manager

/-!
# The polling loop of the SQS runner

This file models the runner between two awaits: the timer, the passes over the subscribed topics,
the batches that they receive and the handling of each message.  What an await answers, which
waiting piece of code goes on next, and when the manager is told to pause, resume or stop is left
to the outside.
-/

namespace Steveo

namespace Polling

/-- What the runner reads from its instance. -/
structure Setup (η : Type) where
  registry : Registry η
  /-- The property `waitToCommit` of the instance's configuration. -/
  waitToCommit : Option Json
  /-- Whether any middleware stands between a batch and the handling of its messages. -/
  hasMiddleware : Bool
  /-- How many topics of a pass, and messages of a batch, are handled at once; zero is no limit. -/
  concurrency : Nat
  arrival : Arrival

/-- Whether a message of a topic is deleted only after it has been handled. -/
def Setup.waitsToCommit {η : Type} (setup : Setup η) (topic : String) : Bool :=
  ((setup.registry.getTask topic).bind fun task => task.options.waitToCommit).getD false ||
    truthy setup.waitToCommit

/-- Whether one more can be handled next to some others. -/
def Setup.admits {η : Type} (setup : Setup η) (others : Nat) : Bool :=
  setup.concurrency = 0 || others < setup.concurrency

/-- What the handling of a message awaits. -/
inductive Stage
  /-- The middleware has the message. -/
  | wrapped
  | acquiring
  | deletingFirst
  | subscribed
  | deletingLast
  | releasing
  | done
  | rejected
  deriving DecidableEq

/-- A message that has been taken from its batch, with its context. -/
structure Handling where
  topic : String
  payload : Json
  message : SqsMessage
  stage : Stage

/-- What the handling of a message does that others can observe. -/
inductive Deed
  | subscribe
  | resolved
  | failed
  | delete
  deriving DecidableEq

/-- What happened: a call of `stop`, or a deed of the handling with the given number. -/
inductive Notice
  | stop
  | deed (id : Nat) (deed : Deed)
  deriving DecidableEq

/-- How far a pass has come with a topic. -/
inductive Work
  | waiting
  | fetching
  | receiving (messages : List SqsMessage) (handled : List Nat)
  | finished

/-- A topic of a pass. -/
structure Subscription where
  topic : String
  work : Work

/-- The runner between two turns of the event loop. -/
structure State where
  manager : RunnerState
  timer : Bool
  passes : List (List Subscription)
  handlings : List Handling
  log : List Notice

/-- A runner before its first pass. -/
def State.initial : State := ⟨.running, false, [], [], []⟩

/-- What can happen. -/
inductive Event
  | stop
  | pause
  | resume
  /-- The call of `stop` has waited long enough and terminates the manager. -/
  | forceTerminate
  | start (subscriptions : List String)
  | tick (subscriptions : List String)
  | fetch (pass index : Nat)
  | dequeue (pass index : Nat) (messages : Option (List SqsMessage))
  /-- The mapping of a batch takes one of the messages that are left. -/
  | take (pass index position : Nat)
  /-- The middleware hands a message on to the runner, perhaps with another context. -/
  | begin (id : Nat) (topic : String) (payload : Json)
  /-- A message of a batch has been rejected. -/
  | abandon (pass index : Nat)
  | complete (pass index : Nat)
  | close (pass : Nat)
  | answer (id : Nat) (fulfilled : Bool)

namespace Handling

variable {η : Type} (setup : Setup η) (handling : Handling)

/-- Whether the message can be deleted. -/
def deletable : Bool :=
  match handling.message.receiptHandle with
  | none | some "" => false
  | some _ => true

/-- The request to delete the message. -/
def deletion : List Deed := if handling.deletable then [.delete] else []

/-- Call the handler of the topic. -/
def subscribe : Stage × List Deed :=
  match setup.registry.getTask handling.topic with
  | none | some .inherited => (.releasing, [])
  | some (.own _) => (.subscribed, [.subscribe])

/-- What the handling does when it gets its resource. -/
def acquired : Stage × List Deed :=
  if nullish handling.payload then
    (.rejected, [])
  else
    match getContext setup.arrival handling.payload with
    | .error _ => (.releasing, [])
    | .ok _ =>
        if setup.waitsToCommit handling.topic then handling.subscribe setup
        else (.deletingFirst, handling.deletion)

/-- What the handling does when what it awaits is answered; only a request can fail. -/
def answer (fulfilled : Bool) : Option (Stage × List Deed) :=
  match handling.stage, fulfilled with
  | .acquiring, true => some (handling.acquired setup)
  | .acquiring, false => some (.rejected, [])
  | .deletingFirst, true => some (handling.subscribe setup)
  | .deletingFirst, false => if handling.deletable then some (.releasing, []) else none
  | .subscribed, true =>
      some (if setup.waitsToCommit handling.topic then
          (.deletingLast, .resolved :: handling.deletion)
        else (.releasing, [.resolved]))
  | .subscribed, false => some (.releasing, [.failed])
  | .deletingLast, true => some (.releasing, [])
  | .deletingLast, false => if handling.deletable then some (.releasing, []) else none
  | .releasing, true => some (.done, [])
  | .releasing, false => some (.rejected, [])
  | .wrapped, _ | .done, _ | .rejected, _ => none

end Handling

namespace State

/-- Ask for the next pass, unless the manager is to terminate. -/
def poll (state : State) : State :=
  if state.manager.shouldTerminate then { state with manager := .terminated, timer := false }
  else { state with timer := true }

/-- Begin a pass. -/
def process (subscriptions : List String) (state : State) : State :=
  if state.manager = .paused then
    state.poll
  else if state.manager.shouldTerminate then
    state.poll
  else
    { state with
      passes := state.passes ++ [subscriptions.map fun topic => ⟨topic, .waiting⟩] }

/-- The topic of a pass. -/
def subscription (state : State) (pass index : Nat) : Option Subscription :=
  state.passes[pass]?.bind fun subscriptions => subscriptions[index]?

/-- Set how far a pass has come with a topic. -/
def setWork (state : State) (pass index : Nat) (work : Work) : State :=
  { state with
    passes := state.passes.modify pass fun subscriptions =>
      subscriptions.modify index fun subscription => { subscription with work } }

/-- The stage of a handling. -/
def stageOf (state : State) (id : Nat) : Option Stage :=
  state.handlings[id]?.map Handling.stage

/-- How many of some handlings have not settled. -/
def unsettled (state : State) (handled : List Nat) : Nat :=
  handled.countP fun id => state.stageOf id ≠ some .done ∧ state.stageOf id ≠ some .rejected

/-- Whether one of some handlings has been rejected. -/
def anyRejected (state : State) (handled : List Nat) : Bool :=
  handled.any fun id => state.stageOf id = some .rejected

/-- A handling moves on. -/
def moveOn (state : State) (id : Nat) (handling : Handling) (next : Stage × List Deed) : State :=
  { state with
    handlings := state.handlings.set id { handling with stage := next.1 }
    log := state.log ++ next.2.map (Notice.deed id) }

end State

/-- How many topics a pass works on at once. -/
def busy (pass : List Subscription) : Nat :=
  pass.countP fun subscription =>
    match subscription.work with
    | .fetching | .receiving _ _ => true
    | .waiting | .finished => false

/-- Whether a pass has finished all its topics. -/
def allFinished (pass : List Subscription) : Bool :=
  pass.all fun subscription =>
    match subscription.work with
    | .finished => true
    | .waiting | .fetching | .receiving _ _ => false

/-- How the runner begins with a message, unless it is to terminate. -/
def admission (manager : RunnerState) : Stage :=
  if manager.shouldTerminate then .done else .acquiring

variable {η : Type}

/-- What becomes of a message that is taken from its batch. -/
def entrance (setup : Setup η) (manager : RunnerState) (message : SqsMessage) : Stage :=
  match message.body with
  | none => .rejected
  | some _ => if setup.hasMiddleware then .wrapped else admission manager

/-- Take a message from a batch. -/
def takeMessage (setup : Setup η) (state : State) (pass index : Nat) (topic : String)
    (message : SqsMessage) (rest : List SqsMessage) (handled : List Nat) : State :=
  let handling : Handling :=
    { topic
      payload := message.body.getD .null
      message
      stage := entrance setup state.manager message }
  { state with handlings := state.handlings ++ [handling] }.setWork pass index
    (.receiving rest (handled ++ [state.handlings.length]))

/-- Hand a message on to the runner. -/
def beginMessage (state : State) (id : Nat) (handling : Handling) (topic : String)
    (payload : Json) : State :=
  { state with
    handlings := state.handlings.set id
      { handling with topic, payload, stage := admission state.manager } }

/-- One turn of the event loop. -/
def step (setup : Setup η) (state : State) : Event → Option State
  | .stop =>
      some { state with
        manager := if state.manager.shouldTerminate then state.manager else .terminating
        log := state.log ++ [.stop] }
  | .pause => some { state with manager := .paused }
  | .resume => some { state with manager := .running }
  | .forceTerminate =>
      if .stop ∈ state.log then some { state with manager := .terminated } else none
  | .start subscriptions =>
      if subscriptions.all setup.registry.registers then
        some (state.process subscriptions)
      else
        none
  | .tick subscriptions =>
      if state.timer && subscriptions.all setup.registry.registers then
        some ({ state with timer := false }.process subscriptions)
      else
        none
  | .fetch pass index =>
      match state.passes[pass]?, state.subscription pass index with
      | some subscriptions, some ⟨_, .waiting⟩ =>
          if setup.admits (busy subscriptions) then
            some (state.setWork pass index
              (if state.manager.shouldTerminate then .finished else .fetching))
          else
            none
      | _, _ => none
  | .dequeue pass index messages =>
      match state.subscription pass index with
      | some ⟨_, .fetching⟩ =>
          some (state.setWork pass index
            (messages.elim .finished fun messages => .receiving messages []))
      | _ => none
  -- With middleware it is up to the middleware when a message counts as handled, or as rejected.
  -- Without, rejected bodies are not seen before as many messages have been taken as are handled
  -- at once.
  | .take pass index position =>
      match state.subscription pass index with
      | some ⟨topic, .receiving messages handled⟩ =>
          messages[position]?.bind fun message =>
            if setup.hasMiddleware || (setup.admits (state.unsettled handled) &&
                (!state.anyRejected handled || setup.admits handled.length)) then
              some (takeMessage setup state pass index topic message (messages.eraseIdx position)
                handled)
            else
              none
      | _ => none
  | .begin id topic payload =>
      match state.handlings[id]? with
      | some handling =>
          if setup.hasMiddleware ∧ handling.stage = .wrapped then
            some (beginMessage state id handling topic payload)
          else
            none
      | none => none
  | .abandon pass index =>
      match state.subscription pass index with
      | some ⟨_, .receiving _ handled⟩ =>
          if setup.hasMiddleware || state.anyRejected handled then
            some (state.setWork pass index .finished)
          else
            none
      | _ => none
  | .complete pass index =>
      match state.subscription pass index with
      | some ⟨_, .receiving [] handled⟩ =>
          if setup.hasMiddleware ∨
              state.unsettled handled = 0 ∧ state.anyRejected handled = false then
            some (state.setWork pass index .finished)
          else
            none
      | _ => none
  | .close pass =>
      match state.passes[pass]? with
      | some subscriptions =>
          if allFinished subscriptions then
            some { state with passes := state.passes.eraseIdx pass }.poll
          else
            none
      | none => none
  | .answer id fulfilled =>
      match state.handlings[id]? with
      | some handling =>
          (handling.answer setup fulfilled).map (state.moveOn id handling)
      | none => none

/-- The runner of an instance. -/
def system (setup : Setup η) : System State Event := ⟨step setup⟩

theorem subscription_setWork (state : State) (pass index : Nat) (work : Work)
    (other position : Nat) :
    (state.setWork pass index work).subscription other position =
      if pass = other ∧ index = position then
        (state.subscription pass index).map fun subscription => { subscription with work }
      else state.subscription other position := by
  simp only [State.subscription, State.setWork, List.getElem?_modify]
  by_cases same : pass = other
  · subst same
    cases state.passes[pass]? with
    | none => simp
    | some subscriptions =>
        by_cases here : index = position
        · subst here
          simp
        · simp [here]
  · cases state.passes[other]? <;> simp [same]

/-! ## What every event needs and leads to -/

/-- An event with what it has found, and the state it has led to. -/
inductive Turn (setup : Setup η) (before : State) : Event → State → Prop
  | stop :
      Turn setup before .stop
        { before with
          manager := if before.manager.shouldTerminate then before.manager else .terminating
          log := before.log ++ [.stop] }
  | pause : Turn setup before .pause { before with manager := .paused }
  | resume : Turn setup before .resume { before with manager := .running }
  | forceTerminate (stopped : .stop ∈ before.log) :
      Turn setup before .forceTerminate { before with manager := .terminated }
  | start {subscriptions : List String}
      (known : subscriptions.all setup.registry.registers = true) :
      Turn setup before (.start subscriptions) (before.process subscriptions)
  | tick {subscriptions : List String} (timer : before.timer = true)
      (known : subscriptions.all setup.registry.registers = true) :
      Turn setup before (.tick subscriptions)
        ({ before with timer := false }.process subscriptions)
  | fetch {pass index : Nat} {topic : String}
      (waiting : before.subscription pass index = some ⟨topic, .waiting⟩) :
      Turn setup before (.fetch pass index)
        (before.setWork pass index
          (if before.manager.shouldTerminate then .finished else .fetching))
  | dequeue {pass index : Nat} {topic : String} (messages : Option (List SqsMessage))
      (fetching : before.subscription pass index = some ⟨topic, .fetching⟩) :
      Turn setup before (.dequeue pass index messages)
        (before.setWork pass index
          (messages.elim .finished fun messages => .receiving messages []))
  | take {pass index position : Nat} {topic : String} {messages : List SqsMessage}
      {handled : List Nat} {message : SqsMessage}
      (found : before.subscription pass index = some ⟨topic, .receiving messages handled⟩)
      (taken : messages[position]? = some message) :
      Turn setup before (.take pass index position)
        (takeMessage setup before pass index topic message (messages.eraseIdx position) handled)
  | begin {id : Nat} {topic : String} {payload : Json} {handling : Handling}
      (found : before.handlings[id]? = some handling) (middleware : setup.hasMiddleware = true)
      (wrapped : handling.stage = .wrapped) :
      Turn setup before (.begin id topic payload) (beginMessage before id handling topic payload)
  | abandon {pass index : Nat} {topic : String} {messages : List SqsMessage} {handled : List Nat}
      (found : before.subscription pass index = some ⟨topic, .receiving messages handled⟩) :
      Turn setup before (.abandon pass index) (before.setWork pass index .finished)
  | complete {pass index : Nat} {topic : String} {handled : List Nat}
      (found : before.subscription pass index = some ⟨topic, .receiving [] handled⟩)
      (settled : setup.hasMiddleware = true ∨ before.unsettled handled = 0) :
      Turn setup before (.complete pass index) (before.setWork pass index .finished)
  | close {pass : Nat} {subscriptions : List Subscription}
      (found : before.passes[pass]? = some subscriptions)
      (finished : allFinished subscriptions = true) :
      Turn setup before (.close pass)
        { before with passes := before.passes.eraseIdx pass }.poll
  | answer {id : Nat} {fulfilled : Bool} {handling : Handling} {next : Stage × List Deed}
      (found : before.handlings[id]? = some handling)
      (answers : handling.answer setup fulfilled = some next) :
      Turn setup before (.answer id fulfilled) (before.moveOn id handling next)

theorem step_turn {setup : Setup η} {before after : State} {event : Event}
    (stepped : step setup before event = some after) : Turn setup before event after := by
  cases event with
  | stop =>
      obtain rfl := Option.some.inj stepped
      exact .stop
  | pause =>
      obtain rfl := Option.some.inj stepped
      exact .pause
  | resume =>
      obtain rfl := Option.some.inj stepped
      exact .resume
  | forceTerminate =>
      simp only [step, Option.ite_none_right_eq_some, Option.some.injEq] at stepped
      obtain ⟨stopped, rfl⟩ := stepped
      exact .forceTerminate stopped
  | start subscriptions =>
      simp only [step, Option.ite_none_right_eq_some, Option.some.injEq] at stepped
      obtain ⟨known, rfl⟩ := stepped
      exact .start known
  | tick subscriptions =>
      simp only [step, Option.ite_none_right_eq_some, Option.some.injEq, Bool.and_eq_true]
        at stepped
      obtain ⟨⟨timer, known⟩, rfl⟩ := stepped
      exact .tick timer known
  | fetch pass index =>
      simp only [step] at stepped
      split at stepped
      · rename_i subscriptions topic _ waiting
        simp only [Option.ite_none_right_eq_some, Option.some.injEq] at stepped
        obtain ⟨-, rfl⟩ := stepped
        exact .fetch waiting
      · contradiction
  | dequeue pass index messages =>
      simp only [step] at stepped
      split at stepped
      · rename_i topic fetching
        obtain rfl := Option.some.inj stepped
        exact .dequeue messages fetching
      · contradiction
  | take pass index position =>
      simp only [step] at stepped
      split at stepped
      · rename_i topic messages handled found
        obtain ⟨message, taken, goes⟩ := Option.bind_eq_some_iff.mp stepped
        obtain ⟨-, same⟩ := Option.ite_none_right_eq_some.mp goes
        obtain rfl := Option.some.inj same
        exact .take found taken
      · contradiction
  | begin id topic payload =>
      simp only [step] at stepped
      split at stepped
      · rename_i handling found
        simp only [Option.ite_none_right_eq_some, Option.some.injEq] at stepped
        obtain ⟨⟨middleware, wrapped⟩, rfl⟩ := stepped
        exact .begin found middleware wrapped
      · contradiction
  | abandon pass index =>
      simp only [step] at stepped
      split at stepped
      · rename_i topic messages handled found
        simp only [Option.ite_none_right_eq_some, Option.some.injEq] at stepped
        obtain ⟨-, rfl⟩ := stepped
        exact .abandon found
      · contradiction
  | complete pass index =>
      simp only [step] at stepped
      split at stepped
      · rename_i topic handled found
        simp only [Option.ite_none_right_eq_some, Option.some.injEq] at stepped
        obtain ⟨settled, rfl⟩ := stepped
        exact .complete found (settled.imp_right And.left)
      · contradiction
  | close pass =>
      simp only [step] at stepped
      split at stepped
      · rename_i subscriptions found
        simp only [Option.ite_none_right_eq_some, Option.some.injEq] at stepped
        obtain ⟨finished, rfl⟩ := stepped
        exact .close found finished
      · contradiction
  | answer id fulfilled =>
      simp only [step] at stepped
      split at stepped
      · rename_i handling found
        obtain ⟨next, answers, rfl⟩ := Option.map_eq_some_iff.mp stepped
        exact .answer found answers
      · contradiction
/-! ## What one turn does -/

/-- What an event does to the manager, the handlings and the log. -/
inductive Effect (setup : Setup η) (before : State) : Event → State → Prop
  | stop :
      Effect setup before .stop
        { before with
          manager := if before.manager.shouldTerminate then before.manager else .terminating
          log := before.log ++ [.stop] }
  | pause : Effect setup before .pause { before with manager := .paused }
  | resume : Effect setup before .resume { before with manager := .running }
  | quiet {event : Event} {after : State}
      (manager : after.manager = before.manager ∨ after.manager = .terminated)
      (handlings : after.handlings = before.handlings) (log : after.log = before.log) :
      Effect setup before event after
  | taken {pass index position : Nat} {after : State} (handling : Handling)
      (entered : handling.stage = entrance setup before.manager handling.message)
      (manager : after.manager = before.manager)
      (handlings : after.handlings = before.handlings ++ [handling])
      (log : after.log = before.log) : Effect setup before (.take pass index position) after
  | begun {id : Nat} {topic : String} {payload : Json} {handling : Handling}
      (found : before.handlings[id]? = some handling) (middleware : setup.hasMiddleware = true)
      (wrapped : handling.stage = .wrapped) :
      Effect setup before (.begin id topic payload) (beginMessage before id handling topic payload)
  | answered {id : Nat} {fulfilled : Bool} {handling : Handling} {next : Stage × List Deed}
      (found : before.handlings[id]? = some handling)
      (answers : handling.answer setup fulfilled = some next) :
      Effect setup before (.answer id fulfilled) (before.moveOn id handling next)

section Effects

variable {setup : Setup η} {before after : State}

theorem Effect.poll (event : Event) {middle : State} (manager : middle.manager = before.manager)
    (handlings : middle.handlings = before.handlings) (log : middle.log = before.log) :
    Effect setup before event middle.poll := by
  rw [State.poll]
  split
  · exact .quiet (.inr rfl) handlings log
  · exact .quiet (.inl manager) handlings log

theorem Effect.process (event : Event) (subscriptions : List String) {middle : State}
    (manager : middle.manager = before.manager) (handlings : middle.handlings = before.handlings)
    (log : middle.log = before.log) :
    Effect setup before event (middle.process subscriptions) := by
  rw [State.process]
  split
  · exact .poll event manager handlings log
  · split
    · exact .poll event manager handlings log
    · exact .quiet (.inl manager) handlings log

theorem step_effect {event : Event} (stepped : step setup before event = some after) :
    Effect setup before event after := by
  cases step_turn stepped with
  | stop => exact .stop
  | pause => exact .pause
  | resume => exact .resume
  | forceTerminate => exact .quiet (.inr rfl) rfl rfl
  | start | tick => exact .process _ _ rfl rfl rfl
  | fetch | dequeue | abandon | complete => exact .quiet (.inl rfl) rfl rfl
  | take => exact .taken _ rfl rfl rfl rfl
  | begin found middleware wrapped => exact .begun found middleware wrapped
  | close => exact .poll _ rfl rfl rfl
  | answer found answers => exact .answered found answers

end Effects
end Polling

end Steveo
