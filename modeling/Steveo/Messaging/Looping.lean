import Steveo.Library.Containment
import Steveo.Messaging.Batch
import Steveo.Runtime.Manager

/-!
# The two polling loops

A call of `process` maps over the subscribed topics and arms the timer for the next call only at
its end.  This file models the loops of the SQS and of the Redis runner, with the calls that they
await between two turns of the event loop.  The SQS runner catches every rejection on the way; the
Redis runner lets a rejected receive, or an answer that is no object, end the loop.
-/

namespace Steveo

namespace Looping

open Async

variable {κ : Type} {ω : κ → Type} {μ : Type}

/-- A runner between two turns of the event loop. -/
structure State (μ : Type) (ω : κ → Type) where
  manager : RunnerState
  /-- The manager has been terminating or terminated. -/
  stopped : Bool
  /-- The delay of the pending timer. -/
  timer : Option Nat
  /-- What the runner remembers itself. -/
  memory : μ
  /-- The calls of `process` that have not ended, and whether a topic had work. -/
  iterations : List (Mapping ω Bool)

/-- Set the state of the manager. -/
def State.setManager (state : State μ ω) (manager : RunnerState) : State μ ω :=
  { state with manager := manager, stopped := state.stopped || manager.shouldTerminate }

/-- The parts in which the loops of the runners differ. -/
structure Loop (μ : Type) (ω : κ → Type) where
  /-- What `process` does for a topic; it answers whether work was done. -/
  program : String → Async ω Bool
  /-- How many topics are handled at once; zero is no limit. -/
  limit : Nat
  /-- Whether `process` polls again without asking for messages. -/
  skips : RunnerState → Bool
  /-- Arm the timer for the next call of `process`, or terminate. -/
  poll : State μ ω → Bool → State μ ω
  /-- The calls that the runner answers itself, and what it then remembers. -/
  serve : RunnerState → μ → ∀ call, Option (Except String (ω call) × μ)

/-- What can happen. -/
inductive Event (ω : κ → Type)
  | pause
  | resume
  | stop
  /-- The manager is terminated by force. -/
  | terminate
  /-- The timer fires; these are the topics that are subscribed then. -/
  | tick (subscriptions : List String)
  /-- Something happens in an iteration. -/
  | within (iteration : Nat) (event : Mapping.Event ω)

/-- Whether a topic had work. -/
def workDone (mapping : Mapping ω Bool) : Bool :=
  mapping.items.any fun item =>
    match item.program with
    | .settled (.ok work) => work
    | _ => false

namespace Loop

variable (loop : Loop μ ω) (state : State μ ω)

/-- Go on with an iteration that has changed: its end arms the timer, unless it is rejected. -/
def advance (iteration : Nat) (mapping : Mapping ω Bool) : State μ ω :=
  if mapping.rejected then
    { state with iterations := state.iterations.eraseIdx iteration }
  else if mapping.items.all fun item => item.started && item.settled then
    loop.poll { state with iterations := state.iterations.eraseIdx iteration } (workDone mapping)
  else
    { state with iterations := state.iterations.set iteration mapping }

/-- A call of `process`, up to what it awaits. -/
def process (subscriptions : List String) : State μ ω :=
  if loop.skips state.manager then
    loop.poll state false
  else
    let mapping := Mapping.begin loop.limit (subscriptions.map loop.program)
    loop.advance { state with iterations := state.iterations ++ [mapping] }
      state.iterations.length mapping

/-- The answer to a call. -/
def answer (environment : ∀ call, Except String (ω call)) (call : κ) : Except String (ω call) :=
  match loop.serve state.manager state.memory call with
  | some (answer, _) => answer
  | none => environment call

/-- An event with the answers that the runner gives itself. -/
def deliver : Mapping.Event ω → Mapping.Event ω
  | .start index => .start index
  | .reply index environment => .reply index (loop.answer state environment)

/-- What the runner remembers after an event. -/
def remember (mapping : Mapping ω Bool) : Mapping.Event ω → μ
  | .start _ => state.memory
  | .reply index _ =>
      match mapping.items[index]?.bind Item.pending with
      | none => state.memory
      | some call =>
          match loop.serve state.manager state.memory call with
          | some (_, memory) => memory
          | none => state.memory

/-- The next state, if the event can happen. -/
def step : Event ω → Option (State μ ω)
  | .pause => some (state.setManager .paused)
  | .resume => some (state.setManager .running)
  | .stop => some (state.setManager .terminating)
  | .terminate => some (state.setManager .terminated)
  | .tick subscriptions =>
      if state.timer.isSome then
        some (loop.process { state with timer := none } subscriptions)
      else
        none
  | .within iteration event =>
      state.iterations[iteration]?.bind fun mapping =>
        (mapping.step (loop.deliver state event)).map fun next =>
          loop.advance { state with memory := loop.remember state mapping event } iteration next

/-- The runs of a loop. -/
def system : System (State μ ω) (Event ω) := ⟨loop.step⟩

/-- A runner after its initial call of `process`. -/
def initial (manager : RunnerState) (memory : μ) (subscriptions : List String) : State μ ω :=
  loop.process ⟨manager, manager.shouldTerminate, none, memory, []⟩ subscriptions

end Loop

/-- Until the manager is terminating, either an iteration is running or a timer is pending. -/
def Polls (state : State μ ω) : Prop :=
  state.stopped = false → Xor (state.iterations ≠ []) (state.timer.isSome = true)

/-- Until the manager is terminating, no pending call gets a risky answer. -/
def Harmless (loop : Loop μ ω) (risky : ∀ call, Except String (ω call) → Prop)
    (state : State μ ω) : Event ω → Prop
  | .within iteration (.reply index environment) =>
      state.stopped = true ∨ ∀ mapping item call, state.iterations[iteration]? = some mapping →
        mapping.items[index]? = some item → item.pending = some call →
          ¬ risky call (loop.answer state environment call)
  | _ => True

section Runs

variable {loop : Loop μ ω} {admits risky : ∀ call, Except String (ω call) → Prop}

/-- The programs of a loop reject risky answers only, and polling arms the timer. -/
structure Loop.Sound (loop : Loop μ ω) (admits risky : ∀ call, Except String (ω call) → Prop) :
    Prop where
  contains : ∀ topic, (loop.program topic).Contains admits risky
  admitted : ∀ state environment call, admits call (loop.answer state environment call)
  poll_iterations : ∀ state work, (loop.poll state work).iterations = state.iterations
  poll_arms : ∀ state work, state.manager.shouldTerminate = false →
    (loop.poll state work).timer.isSome = true ∧ (loop.poll state work).stopped = state.stopped ∧
      (loop.poll state work).manager = state.manager
  poll_stopped : ∀ state work, state.stopped = true → (loop.poll state work).stopped = true

/-- What holds between two turns of the event loop. -/
structure Alive (admits risky : ∀ call, Except String (ω call) → Prop) (state : State μ ω) :
    Prop where
  contained : ∀ mapping ∈ state.iterations, mapping.Contained admits risky
  active : state.stopped = false → state.manager.shouldTerminate = false
  single : state.stopped = false → state.iterations.length + state.timer.toList.length = 1

namespace Alive

variable {state : State μ ω}

theorem polls (alive : Alive admits risky state) : Polls state := by
  intro active
  have single := alive.single active
  cases iterations : state.iterations with
  | nil =>
      cases timer : state.timer with
      | none => simp [iterations, timer] at single
      | some delay => exact .inr ⟨rfl, by simp⟩
  | cons mapping rest =>
      cases timer : state.timer with
      | none => exact .inl ⟨by simp, by simp⟩
      | some delay =>
          simp only [iterations, timer, List.length_cons, Option.toList_some,
            List.length_nil] at single
          omega

/-- Polling without an iteration arms the timer. -/
theorem poll (sound : loop.Sound admits risky)
    (contained : ∀ mapping ∈ state.iterations, mapping.Contained admits risky)
    (active : state.stopped = false → state.manager.shouldTerminate = false)
    (ended : state.stopped = false → state.iterations = []) (work : Bool) :
    Alive admits risky (loop.poll state work) := by
  have kept := sound.poll_iterations state work
  cases stopped : state.stopped with
  | true =>
      have stays := sound.poll_stopped state work stopped
      refine ⟨kept ▸ contained, fun other => ?_, fun other => ?_⟩
      · rw [stays] at other
        cases other
      · rw [stays] at other
        cases other
  | false =>
      obtain ⟨armed, -, manager⟩ := sound.poll_arms state work (active stopped)
      refine ⟨kept ▸ contained, fun _ => manager ▸ active stopped, fun _ => ?_⟩
      obtain ⟨delay, timer⟩ := Option.isSome_iff_exists.mp armed
      rw [kept, ended stopped, timer]
      rfl

/-- An iteration goes on or arms the timer at its end. -/
theorem advance (sound : loop.Sound admits risky) {iteration : Nat} {mapping : Mapping ω Bool}
    (bound : iteration < state.iterations.length)
    (contained : ∀ other ∈ state.iterations, other.Contained admits risky)
    (goes : mapping.Contained admits risky)
    (active : state.stopped = false → state.manager.shouldTerminate = false)
    (single : state.stopped = false → state.iterations.length = 1 ∧ state.timer = none) :
    Alive admits risky (loop.advance state iteration mapping) := by
  rw [Loop.advance, goes.not_rejected, if_neg Bool.false_ne_true]
  split
  · refine poll sound ?_ ?_ ?_ _
    · exact fun other member => contained other (List.mem_of_mem_eraseIdx member)
    · exact active
    · intro running
      refine List.eq_nil_of_length_eq_zero ?_
      rw [List.length_eraseIdx_of_lt bound, (single running).1]
  · refine ⟨fun other member => ?_, active, fun running => ?_⟩
    · rcases List.mem_or_eq_of_mem_set member with member | rfl
      · exact contained other member
      · exact goes
    · rw [List.length_set, (single running).1, (single running).2]
      rfl

/-- A call of `process` starts an iteration or arms the timer. -/
theorem process (sound : loop.Sound admits risky) (subscriptions : List String)
    (contained : ∀ mapping ∈ state.iterations, mapping.Contained admits risky)
    (active : state.stopped = false → state.manager.shouldTerminate = false)
    (idle : state.stopped = false → state.iterations = [] ∧ state.timer = none) :
    Alive admits risky (loop.process state subscriptions) := by
  rw [Loop.process]
  split
  · exact poll sound contained active (fun running => (idle running).1) _
  · have begun :
        (Mapping.begin loop.limit (subscriptions.map loop.program)).Contained admits risky :=
      Mapping.contained_begin fun program member => by
        obtain ⟨topic, -, rfl⟩ := List.mem_map.mp member
        exact sound.contains topic
    refine advance sound (by simp) (fun other member => ?_) begun active fun running => ?_
    · rcases List.mem_append.mp member with earlier | last
      · exact contained other earlier
      · rw [List.mem_singleton.mp last]
        exact begun
    · rw [(idle running).1]
      exact ⟨rfl, (idle running).2⟩

theorem setManager (alive : Alive admits risky state) (manager : RunnerState) :
    Alive admits risky (state.setManager manager) := by
  have active : ∀ {flag : Bool}, (flag || manager.shouldTerminate) = false →
      flag = false ∧ manager.shouldTerminate = false := by simp
  exact ⟨alive.contained, fun running => (active running).2,
    fun running => alive.single (active running).1⟩

/-- While an iteration is running no timer is pending. -/
theorem alone (alive : Alive admits risky state) (running : state.stopped = false)
    {iteration : Nat} {mapping : Mapping ω Bool}
    (found : state.iterations[iteration]? = some mapping) :
    state.iterations.length = 1 ∧ state.timer = none := by
  have single := alive.single running
  obtain ⟨bound, -⟩ := List.getElem?_eq_some_iff.mp found
  cases timer : state.timer with
  | none =>
      rw [timer] at single
      exact ⟨single, rfl⟩
  | some delay =>
      simp only [timer, Option.toList_some, List.length_singleton] at single
      omega

/-- What an event in an iteration does, apart from a risky answer. -/
theorem within (sound : loop.Sound admits risky) (alive : Alive admits risky state)
    {iteration : Nat} {mapping next : Mapping ω Bool} {memory : μ}
    (found : state.iterations[iteration]? = some mapping) (goes : next.Contained admits risky) :
    Alive admits risky (loop.advance { state with memory := memory } iteration next) := by
  obtain ⟨bound, -⟩ := List.getElem?_eq_some_iff.mp found
  exact advance sound bound alive.contained goes alive.active fun running =>
    alive.alone running found

end Alive

variable {before after : State μ ω} {event : Event ω}

/-- Every harmless event keeps the loop alive. -/
theorem alive_step (sound : loop.Sound admits risky) (alive : Alive admits risky before)
    (harmless : Harmless loop risky before event) (stepped : loop.step before event = some after) :
    Alive admits risky after := by
  cases event with
  | pause =>
      obtain rfl := Option.some.inj stepped
      exact alive.setManager _
  | resume =>
      obtain rfl := Option.some.inj stepped
      exact alive.setManager _
  | stop =>
      obtain rfl := Option.some.inj stepped
      exact alive.setManager _
  | terminate =>
      obtain rfl := Option.some.inj stepped
      exact alive.setManager _
  | tick subscriptions =>
      obtain ⟨armed, same⟩ := Option.ite_none_right_eq_some.mp stepped
      obtain rfl := Option.some.inj same
      refine Alive.process sound subscriptions alive.contained alive.active fun running => ?_
      have single := alive.single running
      obtain ⟨delay, timer⟩ := Option.isSome_iff_exists.mp armed
      rw [timer, Option.toList_some, List.length_singleton] at single
      exact ⟨List.eq_nil_of_length_eq_zero (Nat.succ.inj single), rfl⟩
  | within iteration event =>
      obtain ⟨mapping, found, moved⟩ := Option.bind_eq_some_iff.mp stepped
      obtain ⟨next, moves, rfl⟩ := Option.map_eq_some_iff.mp moved
      have contained := alive.contained mapping (List.mem_of_getElem? found)
      cases event with
      | start index => exact alive.within sound found (contained.start moves)
      | reply index environment =>
          obtain ⟨item, call, present, pending, rejects, goes⟩ :=
            contained.reply (sound.admitted before environment) moves
          by_cases risk : risky call (loop.answer before environment call)
          · rcases harmless with stopped | spared
            · rw [Loop.advance, if_pos (rejects risk)]
              refine ⟨fun other member => alive.contained other (List.mem_of_mem_eraseIdx member),
                fun running => ?_, fun running => ?_⟩
              · exact (Bool.false_ne_true (running.symm.trans stopped)).elim
              · exact (Bool.false_ne_true (running.symm.trans stopped)).elim
            · exact (spared mapping item call found present pending risk).elim
          · exact alive.within sound found (goes risk)

/-- A risky answer ends the loop. -/
theorem harmless_of_polls (sound : loop.Sound admits risky) (alive : Alive admits risky before)
    (stepped : loop.step before event = some after) (polls : Polls after) :
    Harmless loop risky before event := by
  cases event with
  | pause => trivial
  | resume => trivial
  | stop => trivial
  | terminate => trivial
  | tick subscriptions => trivial
  | within iteration event =>
      cases event with
      | start index => trivial
      | reply index environment =>
          obtain ⟨mapping, found, moved⟩ := Option.bind_eq_some_iff.mp stepped
          obtain ⟨next, moves, rfl⟩ := Option.map_eq_some_iff.mp moved
          have contained := alive.contained mapping (List.mem_of_getElem? found)
          obtain ⟨item, call, present, pending, rejects, -⟩ :=
            contained.reply (sound.admitted before environment) moves
          cases stopped : before.stopped with
          | true => exact .inl stopped
          | false =>
              refine .inr fun other job answered placed listed awaited risk => ?_
              obtain rfl := Option.some.inj (found.symm.trans placed)
              obtain rfl := Option.some.inj (present.symm.trans listed)
              obtain rfl := Option.some.inj (pending.symm.trans awaited)
              obtain ⟨single, timer⟩ := alive.alone stopped found
              obtain ⟨bound, -⟩ := List.getElem?_eq_some_iff.mp found
              have ended : before.iterations.eraseIdx iteration = [] :=
                List.eq_nil_of_length_eq_zero (by rw [List.length_eraseIdx_of_lt bound, single])
              rw [Loop.advance, if_pos (rejects risk)] at polls
              rcases polls stopped with ⟨running, -⟩ | ⟨armed, -⟩
              · exact running ended
              · rw [timer] at armed
                cases armed

/-- The loop polls in every state of a run exactly if no pending call gets a risky answer before
the manager is terminating. -/
theorem polls_iff_harmless (sound : loop.Sound admits risky) (manager : RunnerState) (memory : μ)
    (subscriptions : List String) {events : List (Event ω)} {final : State μ ω}
    (execution : loop.system.run events (loop.initial manager memory subscriptions) = some final) :
    loop.system.Throughout Polls events (loop.initial manager memory subscriptions) ↔
      loop.system.Along (Harmless loop risky) events
        (loop.initial manager memory subscriptions) := by
  have start : Alive admits risky (loop.initial manager memory subscriptions) :=
    Alive.process sound subscriptions (List.forall_mem_nil _) id fun _ => ⟨rfl, rfl⟩
  have preserved : ∀ (before : State μ ω) event after, Alive admits risky before →
      Harmless loop risky before event → loop.system.step before event = some after →
        Alive admits risky after :=
    fun _ _ _ alive harmless stepped => alive_step sound alive harmless stepped
  have breaks : ∀ (before : State μ ω) event after, Alive admits risky before →
      loop.system.step before event = some after → Polls after →
        Harmless loop risky before event :=
    fun _ _ _ alive stepped polls => harmless_of_polls sound alive stepped polls
  exact System.throughout_iff_along (fun _ alive => alive.polls) preserved breaks start execution

end Runs

/-! ## The SQS runner -/

namespace Sqs

/-- What the loop of the SQS runner awaits, and the reads of its own state between. -/
inductive Call
  | shouldTerminate
  | cachedUrl (queue : String)
  | cacheUrl (queue url : String)
  | getQueueUrl (queue : String)
  | receiveMessage (url : Property String)
  | receive (messages : List SqsMessage) (topic : String)

/-- The answer to a call that is not rejected. -/
abbrev Call.Answer : Call → Type
  | .shouldTerminate => Bool
  | .cachedUrl _ => Option (Property String)
  | .getQueueUrl _ => Option String
  | .receiveMessage _ => Option (List SqsMessage)
  | .cacheUrl _ _ | .receive _ _ => Unit

variable {η : Type} (setup : Batch.Setup η)

/-- Ask for the URL of a queue. -/
def getUrl (queue : String) : Async Call.Answer (Option String) := do
  match ← (perform (Call.getQueueUrl queue)).attempt with
  | .ok url => pure url
  | .error _ => pure none

/-- Ask for the URL of a queue and remember it. -/
def fetchUrl (queue : String) : Async Call.Answer Unit := do
  match ← getUrl queue with
  | none | some "" => pure ()
  | some url => perform (Call.cacheUrl queue url)

/-- Look the URL of a topic up, and ask for it if nothing is found. -/
def getQueueUrl (topic : String) : Async Call.Answer (Option (Property String)) := do
  let queue := Batch.Sqs.getTopic setup topic
  let cached ← perform (Call.cachedUrl queue)
  runIf (!Property.truthy cached) (fetchUrl queue)
  perform (Call.cachedUrl queue)

/-- Ask for messages. -/
def dequeue (url : Property String) : Async Call.Answer (Option (List SqsMessage)) := do
  match ← (perform (Call.receiveMessage url)).attempt with
  | .ok messages => pure messages
  | .error _ => pure none

/-- What `process` does for a topic. -/
def processTopic (topic : String) : Async Call.Answer Bool := do
  let terminating ← perform Call.shouldTerminate
  if terminating then
    pure false
  else
    match ← getQueueUrl setup topic with
    | none | some (.own "") => pure false
    | some url =>
        match ← dequeue url with
        | none => pure false
        | some messages =>
            match ← (perform (Call.receive messages topic)).attempt with
            | .ok _ => pure !messages.isEmpty
            | .error _ => pure false

/-- Arm the timer, or terminate. -/
def poll (consumerPollInterval : Option Nat)
    (state : State (Dictionary String String) Call.Answer) (wasWorkDone : Bool) :
    State (Dictionary String String) Call.Answer :=
  if state.manager.shouldTerminate then
    { state with timer := none }.setManager .terminated
  else
    { state with timer := some (if wasWorkDone then 10 else consumerPollInterval.getD 1000) }

/-- The runner reads the manager and its own cache of URLs. -/
def serve (manager : RunnerState) (sqsUrls : Dictionary String String) :
    ∀ call : Call, Option (Except String call.Answer × Dictionary String String)
  | .shouldTerminate => some (.ok manager.shouldTerminate, sqsUrls)
  | .cachedUrl queue => some (.ok (sqsUrls.property queue), sqsUrls)
  | .cacheUrl queue url =>
      some (.ok (), if queue = "__proto__" then sqsUrls else sqsUrls.set queue url)
  | .getQueueUrl _ | .receiveMessage _ | .receive _ _ => none

/-- The loop of the SQS runner. -/
def loop (consumerPollInterval : Option Nat) (concurrency : Nat) :
    Loop (Dictionary String String) Call.Answer where
  program := processTopic setup
  limit := concurrency
  skips manager := manager = .paused || manager.shouldTerminate
  poll := poll consumerPollInterval
  serve := serve

/-- The reads of the runner's own state are not rejected. -/
def Own : ∀ call : Call, Except String call.Answer → Prop
  | .shouldTerminate, answer => ∃ value, answer = .ok value
  | .cachedUrl _, answer => ∃ value, answer = .ok value
  | .cacheUrl _ _, answer => ∃ value, answer = .ok value
  | .getQueueUrl _, _ | .receiveMessage _, _ | .receive _ _, _ => True

theorem contains_own {call : Call}
    (own : ∀ answer, Own call answer → ∃ value, answer = .ok value) :
    (perform call : Async Call.Answer call.Answer).Contains Own fun _ _ => False := by
  refine contains_perform fun answer admitted => iff_of_false id ?_
  rintro ⟨message, rfl⟩
  obtain ⟨value, same⟩ := own _ admitted
  cases same

theorem contains_observed (call : Call) :
    (perform call : Async Call.Answer call.Answer).attempt.Contains Own fun _ _ => False :=
  contains_attempt _ ((makes_perform call).mpr fun _ => id)

theorem fetchUrl_contains (queue : String) : (fetchUrl queue).Contains Own fun _ _ => False := by
  have asks : (getUrl queue).Contains Own fun _ _ => False := by
    refine (contains_observed _).bind fun outcome => ?_
    cases outcome <;> exact contains_pure _
  refine asks.bind fun url => ?_
  split
  · exact contains_pure _
  · exact contains_pure _
  · exact contains_own fun _ => id

theorem getQueueUrl_contains (topic : String) :
    (getQueueUrl setup topic).Contains Own fun _ _ => False :=
  (contains_own fun _ => id).bind fun _ =>
    ((fetchUrl_contains _).runIf _).bind fun _ => contains_own fun _ => id

theorem dequeue_contains (url : Property String) : (dequeue url).Contains Own fun _ _ => False := by
  refine (contains_observed _).bind fun outcome => ?_
  cases outcome <;> exact contains_pure _

/-- Nothing that `process` awaits for a topic rejects it. -/
theorem processTopic_contains (topic : String) :
    (processTopic setup topic).Contains Own fun _ _ => False := by
  refine (contains_own fun _ => id).bind fun terminating => ?_
  cases terminating with
  | true => exact contains_pure _
  | false =>
      refine (getQueueUrl_contains setup topic).bind fun url => ?_
      split
      · exact contains_pure _
      · exact contains_pure _
      · refine (dequeue_contains _).bind fun messages => ?_
        cases messages with
        | none => exact contains_pure _
        | some messages =>
            refine (contains_observed _).bind fun outcome => ?_
            cases outcome <;> exact contains_pure _

theorem sound (consumerPollInterval : Option Nat) (concurrency : Nat) :
    (loop setup consumerPollInterval concurrency).Sound Own fun _ _ => False where
  contains := processTopic_contains setup
  admitted state environment call := by
    cases call with
    | shouldTerminate => exact ⟨_, rfl⟩
    | cachedUrl queue => exact ⟨_, rfl⟩
    | cacheUrl queue url => exact ⟨_, rfl⟩
    | getQueueUrl queue => trivial
    | receiveMessage url => trivial
    | receive messages topic => trivial
  poll_iterations state work := by
    show (poll consumerPollInterval state work).iterations = _
    rw [poll]
    split <;> rfl
  poll_arms state work active := by
    show (poll consumerPollInterval state work).timer.isSome = true ∧
      (poll consumerPollInterval state work).stopped = _ ∧
        (poll consumerPollInterval state work).manager = _
    rw [poll, if_neg (by simp [active])]
    exact ⟨rfl, rfl, rfl⟩
  poll_stopped state work stopped := by
    show (poll consumerPollInterval state work).stopped = true
    rw [poll]
    split
    · simp [State.setManager, stopped]
    · exact stopped

end Sqs

/-! ## The Redis runner -/

namespace Redis

/-- What the loop of the Redis runner awaits. -/
inductive Call
  | receiveMessage (topic : String)
  | receive (messages : List Json) (topic : String)

/-- The answer to a call that is not rejected. -/
abbrev Call.Answer : Call → Type
  | .receiveMessage _ => Option Json
  | .receive _ _ => Unit

/-- Have an answer handled that has properties. -/
def handleData (topic : String) (data : Option Json) : Async Call.Answer Unit := do
  ensure (!nullish data) "TypeError: Cannot convert undefined or null to object"
  runIf (!(ownFields data).isEmpty) do
    let _ ← (perform (Call.receive data.toList topic)).attempt

/-- Ask for a message and have it handled. -/
def dequeue (topic : String) : Async Call.Answer Unit := do
  let data ← perform (Call.receiveMessage topic)
  handleData topic data

/-- What `process` does for a topic. -/
def processTopic (topic : String) : Async Call.Answer Bool := do
  dequeue topic
  pure false

/-- Arm the timer, or terminate. -/
def poll (consumerPollInterval : Option Nat) (state : State Unit Call.Answer) (_ : Bool) :
    State Unit Call.Answer :=
  if state.manager.shouldTerminate then
    state.setManager .terminated
  else
    { state with timer := some (consumerPollInterval.getD 1000) }

/-- The loop of the Redis runner. -/
def loop (consumerPollInterval : Option Nat) (max : Nat) : Loop Unit Call.Answer where
  program := processTopic
  limit := max
  skips manager := manager = .paused
  poll := poll consumerPollInterval
  serve _ _ _ := none

/-- The receive call has been rejected, or has not answered with an object. -/
def Lost : ∀ call : Call, Except String call.Answer → Prop
  | .receiveMessage _, .error _ => True
  | .receiveMessage _, .ok data => nullish data = true
  | .receive _ _, _ => False

/-- Only a lost receive call rejects what `process` does for a topic. -/
theorem processTopic_contains (topic : String) :
    (processTopic topic).Contains (fun _ _ => True) Lost := by
  refine Contains.bind (fun answer _ => ?_) fun _ => contains_pure _
  cases answer with
  | error message => exact ⟨fun _ => ⟨message, rfl⟩, fun kept => (kept trivial).elim⟩
  | ok data =>
      show (Lost _ (.ok data) → ∃ message, handleData topic data = settled (.error message)) ∧
        (¬ Lost _ (.ok data) → (handleData topic data).Contains _ Lost)
      rw [handleData]
      cases absent : nullish data with
      | true => exact ⟨fun _ => ⟨_, rfl⟩, fun kept => (kept absent).elim⟩
      | false =>
          refine ⟨fun lost => (Bool.false_ne_true (absent.symm.trans lost)).elim, fun _ => ?_⟩
          have handles : (perform (Call.receive data.toList topic)).attempt.Contains
              (fun _ _ => True) Lost :=
            contains_attempt _ ((makes_perform _).mpr fun _ => id)
          exact (handles.bind fun _ => contains_pure _).runIf _

theorem sound (consumerPollInterval : Option Nat) (max : Nat) :
    (loop consumerPollInterval max).Sound (fun _ _ => True) Lost where
  contains := processTopic_contains
  admitted _ _ _ := trivial
  poll_iterations state work := by
    show (poll consumerPollInterval state work).iterations = _
    rw [poll]
    split <;> rfl
  poll_arms state work active := by
    show (poll consumerPollInterval state work).timer.isSome = true ∧
      (poll consumerPollInterval state work).stopped = _ ∧
        (poll consumerPollInterval state work).manager = _
    rw [poll, if_neg (by simp [active])]
    exact ⟨rfl, rfl, rfl⟩
  poll_stopped state work stopped := by
    show (poll consumerPollInterval state work).stopped = true
    rw [poll]
    split
    · simp [State.setManager, stopped]
    · exact stopped

end Redis

/-- The SQS runner polls until the manager is terminating, whatever it is answered.  The Redis
runner does so exactly if no receive call is lost before. -/
theorem keepsPolling_iff {η : Type} (setup : Batch.Setup η) (consumerPollInterval : Option Nat)
    (concurrency : Nat) (manager : RunnerState) (subscriptions : List String) :
    (∀ sqsUrls events final,
      (Sqs.loop setup consumerPollInterval concurrency).system.run events
        ((Sqs.loop setup consumerPollInterval concurrency).initial manager sqsUrls subscriptions) =
          some final →
      (Sqs.loop setup consumerPollInterval concurrency).system.Throughout Polls events
        ((Sqs.loop setup consumerPollInterval concurrency).initial manager sqsUrls
          subscriptions)) ∧
    ∀ events final,
      (Redis.loop consumerPollInterval concurrency).system.run events
        ((Redis.loop consumerPollInterval concurrency).initial manager () subscriptions) =
          some final →
      ((Redis.loop consumerPollInterval concurrency).system.Throughout Polls events
          ((Redis.loop consumerPollInterval concurrency).initial manager () subscriptions) ↔
        (Redis.loop consumerPollInterval concurrency).system.Along
          (Harmless (Redis.loop consumerPollInterval concurrency) Redis.Lost) events
          ((Redis.loop consumerPollInterval concurrency).initial manager () subscriptions)) := by
  constructor
  · intro sqsUrls events final execution
    have sound := Sqs.sound setup consumerPollInterval concurrency
    refine (polls_iff_harmless sound manager sqsUrls subscriptions execution).mpr ?_
    refine System.along_of_always _ (fun state event => ?_) _ _
    cases event with
    | within iteration event =>
        cases event with
        | start index => trivial
        | reply index environment => exact .inr fun _ _ _ _ _ _ => id
    | _ => trivial
  · intro events final execution
    exact polls_iff_harmless (Redis.sound consumerPollInterval concurrency) manager ()
      subscriptions execution

/-- The queue answers every receive call in the same way. -/
def answering (data : Except String (Option Json)) :
    ∀ call : Redis.Call, Except String call.Answer
  | .receiveMessage _ => data
  | .receive _ _ => .ok ()

/-- A rejected receive call ends the loop of the Redis runner. -/
theorem rejected_receive_ends_loop :
    ∃ final, (Redis.loop none 1).system.run
        [.within 0 (.reply 0 (answering (.error "ECONNRESET")))]
        ((Redis.loop none 1).initial .running () ["orders"]) = some final ∧
      final.stopped = false ∧ final.iterations = [] ∧ final.timer = none ∧ ¬ Polls final := by
  refine ⟨_, rfl, rfl, rfl, rfl, fun polls => ?_⟩
  rcases polls rfl with ⟨running, -⟩ | ⟨armed, -⟩
  · exact running rfl
  · cases armed

/-- After an answer without a message the Redis runner polls again. -/
theorem empty_reply_polls_again :
    (Redis.loop none 1).system.Throughout Polls
      [.within 0 (.reply 0 (answering (.ok (some (.obj []))))), .tick ["orders"]]
      ((Redis.loop none 1).initial .running () ["orders"]) := by
  have holds := (keepsPolling_iff Batch.vacant none 1 .running ["orders"]).2
    [.within 0 (.reply 0 (answering (.ok (some (.obj []))))), .tick ["orders"]] _ rfl
  refine holds.mpr ⟨.inr ?_, fun next stepped => ⟨trivial, fun _ _ => trivial⟩⟩
  intro mapping item call found present pending lost
  obtain rfl := Option.some.inj found
  obtain rfl := Option.some.inj present
  obtain rfl := Option.some.inj pending
  cases lost

end Looping

end Steveo
