import Steveo.Kafka.Settlement

/-!
# Runners that crash

A runner may crash at any time.  The next one begins at the committed offsets, of which some have
been issued and never carried out.  A message is therefore handed over again until it has settled
once: the committed offsets never pass a message that no runner has settled.
-/

namespace Steveo

namespace KafkaRunner

/-- One runner after another, and what is committed for their group. -/
structure Service where
  /-- The runner that runs, with the positions of its client. -/
  current : Consumption
  /-- The positions at which it has begun. -/
  origin : TopicPartition → Nat
  committed : TopicPartition → Nat
  /-- The messages that earlier runners have settled. -/
  settledBefore : List TopicPartitionOffset
  /-- The offsets whose commits earlier runners have issued. -/
  issuedBefore : List TopicPartitionOffset

namespace Service

/-- The messages that any runner has settled. -/
def settled (service : Service) : List TopicPartitionOffset :=
  service.settledBefore ++ KafkaRunner.settled service.current.runner.calls

/-- The offsets whose commits any runner has issued. -/
def issued (service : Service) : List TopicPartitionOffset :=
  service.issuedBefore ++ service.current.runner.calls.flatMap Call.commits

/-- What can happen. -/
inductive Event
  | turn (event : KafkaRunner.Event)
  /-- A commit that has been issued is carried out. -/
  | land (offset : TopicPartitionOffset)
  /-- The runner crashes or loses its partitions, and the next one begins. -/
  | restart

/-- The next state, if the event can happen. -/
def step (config : KafkaConfiguration) (service : Service) : Event → Option Service
  | .turn event =>
      ((consumption config).step service.current event).map fun current =>
        { service with current }
  | .land offset =>
      if offset ∈ service.issued then
        some { service with
          committed := Function.update service.committed offset.topicPartition offset.offset }
      else none
  | .restart =>
      some
        { current := ⟨.started config, service.committed⟩
          origin := service.committed
          committed := service.committed
          settledBefore := service.settled
          issuedBefore := service.issued }

/-- One runner after another. -/
def system (config : KafkaConfiguration) : System Service Event := ⟨step config⟩

/-- The first runner begins at the committed offsets. -/
def initial (config : KafkaConfiguration) (committed : TopicPartition → Nat) : Service where
  current := ⟨.started config, committed⟩
  origin := committed
  committed := committed
  settledBefore := []
  issuedBefore := []

end Service

/-- Some messages follow each other in their partitions, without any message between them. -/
def Consecutive (stored : TopicPartitionOffset → Prop) :
    List TopicPartitionOffset → (TopicPartition → Nat) → Prop
  | [], _ => True
  | message :: messages, position =>
      (∀ skipped, stored skipped → skipped.topicPartition = message.topicPartition →
        position message.topicPartition ≤ skipped.offset → message.offset ≤ skipped.offset) ∧
      Consecutive stored messages
        (Function.update position message.topicPartition (message.offset + 1))

/-- The client hands over every message that is stored, and the runner takes what it is handed. -/
def Service.Gapless (stored : TopicPartitionOffset → Prop) (before : Service) :
    Service.Event → Prop
  | .turn (.callback error messages) =>
      Takes before.current (.callback error messages) ∧
        Consecutive stored messages before.current.position
  | _ => True

/-- What a client that skips nothing has handed over. -/
theorem mem_of_consecutive {stored : TopicPartitionOffset → Prop}
    {messages : List TopicPartitionOffset} {position after : TopicPartition → Nat}
    (consecutive : Consecutive stored messages position)
    (advanced : advance messages position = some after) {message : TopicPartitionOffset}
    (present : stored message) (reached : position message.topicPartition ≤ message.offset)
    (passed : message.offset < after message.topicPartition) : message ∈ messages := by
  induction messages generalizing position with
  | nil =>
      obtain rfl := Option.some.inj advanced
      omega
  | cons first messages induction =>
      obtain ⟨gapless, rest⟩ := consecutive
      rw [advance, Option.ite_none_right_eq_some] at advanced
      obtain ⟨-, advanced⟩ := advanced
      by_cases same : message.topicPartition = first.topicPartition
      · have later := gapless message present same (same ▸ reached)
        rcases later.eq_or_lt with equal | beyond
        · have identical : first = message := by
            obtain ⟨topics, partitions⟩ := Prod.mk.inj same
            obtain ⟨topic, partition, offset⟩ := message
            obtain ⟨firstTopic, firstPartition, firstOffset⟩ := first
            obtain rfl : topic = firstTopic := topics
            obtain rfl : partition = firstPartition := partitions
            obtain rfl : firstOffset = offset := equal
            rfl
          exact identical ▸ List.mem_cons_self
        · refine List.mem_cons_of_mem _ (induction rest advanced ?_)
          rw [same, Function.update_self]
          exact beyond
      · refine List.mem_cons_of_mem _ (induction rest advanced ?_)
        rw [Function.update_of_ne same]
        exact reached

/-! ## What a turn commits -/

section Turns

variable {config : KafkaConfiguration} {before : Consumption} {after : State}

/-- A turn in which nothing is handed over commits no offset past the positions of the client. -/
theorem turn_commits (consistent : Consistent before) {event : Event}
    (silent : ∀ error messages, event ≠ .callback error messages)
    (stepped : step config before.runner event = some after) :
    ∃ added, after.calls = before.runner.calls ++ added ∧ handed added = [] ∧
      ∀ offset ∈ added.flatMap Call.commits,
        offset.offset ≤ before.position offset.topicPartition := by
  cases event with
  | callback error messages => exact absurd rfl (silent error messages)
  | wake =>
      obtain ⟨-, rfl⟩ := step_wake stepped
      exact ⟨[.consume config.getBatchSize], rfl, rfl, by simp [Call.commits]⟩
  | start index message =>
      obtain ⟨batch, -, -, rfl⟩ := step_start stepped
      exact ⟨[], (List.append_nil _).symm, rfl, by simp⟩
  | settle index message fulfilled =>
      obtain ⟨batch, -, -, rfl⟩ := step_settle stepped
      exact ⟨[.settled message fulfilled], rfl, rfl, by simp [Call.commits]⟩
  | finish index accepted =>
      obtain ⟨batch, found, -, -, rfl⟩ := step_finish stepped
      obtain ⟨-, -, added, calls, commits⟩ := finish_spec config batch accepted
        { before.runner with batches := before.runner.batches.eraseIdx index }
      refine ⟨added, calls, ?_, fun offset member => ?_⟩
      · have quiet : handed (before.runner.calls ++ added) = handed before.runner.calls := by
          rw [← calls, State.consume, State.called, handed_called _ rfl, State.commitBatch,
            foldl_commit_spec]
          have commitsOnly : ∀ entries : List (String × TopicPartitionOffset),
              handed (entries.map fun entry => .commitMessage entry.2) = [] := by
            intro entries
            simp [handed, List.flatMap_map, Call.deliveries]
          rw [handed_append, commitsOnly, List.append_nil]
          exact Quiet.handed_report _ batch
        rw [handed_append] at quiet
        exact List.append_right_eq_self.mp quiet
      · rw [commits] at member
        obtain ⟨entry, listed, rfl⟩ := List.mem_map.mp member
        have own := (mem_highestPerPartition (List.mem_of_mem_take listed)).1
        exact consistent.orderly.handed_lt entry.2
          (consistent.batched batch (List.mem_of_getElem? found) entry.2 own)
  | revoke =>
      obtain rfl := Option.some.inj stepped
      rw [State.flushOffsets]
      split
      · exact ⟨[], (List.append_nil _).symm, rfl, by simp⟩
      · refine ⟨[.commitSync before.runner.processedOffsets.values], rfl, rfl, ?_⟩
        intro offset member
        exact consistent.orderly.processed_le offset (by simpa [Call.commits] using member)
  | pause | resume =>
      obtain rfl := Option.some.inj stepped
      exact ⟨[], (List.append_nil _).symm, rfl, by simp⟩
  | stop =>
      obtain rfl := Option.some.inj stepped
      refine ⟨[], ?_, rfl, by simp⟩
      rw [List.append_nil]
      split <;> rfl

/-- A turn in which messages are handed over commits nothing. -/
theorem callback_calls {error : Bool} {messages : List TopicPartitionOffset}
    (stepped : step config before.runner (.callback error messages) = some after) :
    ∃ added, after.calls = before.runner.calls ++ added ∧ messages ⊆ handed added ∧
      added.flatMap Call.commits = [] := by
  obtain ⟨-, -, rfl⟩ := step_callback stepped
  obtain ⟨added, appended, silent, -, -⟩ := consumeCallback_spec config error messages
    ({ before.runner with requests := before.runner.requests - 1 }.called (.handed messages))
  refine ⟨.handed messages :: added, ?_, fun message member => ?_, ?_⟩
  · rw [appended]
    simp [State.called]
  · simp [handed, Call.deliveries, member]
  · rw [List.flatMap_cons, silent]
    rfl

end Turns

/-! ## What holds of every run -/

/-- The stored messages between some positions are among some messages. -/
def Covers (stored : TopicPartitionOffset → Prop) (first limit : TopicPartition → Nat)
    (messages : List TopicPartitionOffset) : Prop :=
  ∀ message, stored message → first message.topicPartition ≤ message.offset →
    message.offset < limit message.topicPartition → message ∈ messages

theorem Covers.mono {stored : TopicPartitionOffset → Prop} {first limit : TopicPartition → Nat}
    {messages more : List TopicPartitionOffset} (covers : Covers stored first limit messages)
    (kept : messages ⊆ more) : Covers stored first limit more :=
  fun message present reached passed => kept (covers message present reached passed)

/-- Neither a committed offset nor one whose commit has been issued passes a message that has not
settled, and the client of the runner has handed over what is between its positions. -/
structure Safe (stored : TopicPartitionOffset → Prop) (base : TopicPartition → Nat)
    (service : Service) : Prop where
  consistent : Consistent service.current
  handed : Covers stored service.origin service.current.position
    (handed service.current.runner.calls)
  before : Covers stored base service.origin service.settledBefore
  issued : ∀ offset ∈ service.issued, ∀ message, stored message →
    base message.topicPartition ≤ message.offset → Past offset message →
      message ∈ service.settled
  committed : Covers stored base service.committed service.settled

section Steps

variable {stored : TopicPartitionOffset → Prop} {base : TopicPartition → Nat}
  {config : KafkaConfiguration} {service after : Service}

theorem safe_initial (stored : TopicPartitionOffset → Prop) (config : KafkaConfiguration)
    (base : TopicPartition → Nat) : Safe stored base (.initial config base) where
  consistent := consistent_started config base
  handed message _ reached passed := absurd reached (Nat.not_le_of_lt passed)
  before message _ reached passed := absurd reached (Nat.not_le_of_lt passed)
  issued offset member := by
    simp [Service.issued, Service.initial, State.started, State.consume, State.called,
      Call.commits] at member
  committed message _ reached passed := absurd reached (Nat.not_le_of_lt passed)

/-- What is settled stays settled. -/
theorem settled_subset {added : List Call} {current : Consumption}
    (appended : current.runner.calls = service.current.runner.calls ++ added) :
    service.settled ⊆ { service with current }.settled := by
  intro message member
  rw [Service.settled, appended, settled_append, ← List.append_assoc]
  exact List.mem_append_left _ member

theorem Safe.callback (safe : Safe stored base service) {error : Bool}
    {messages : List TopicPartitionOffset} {current : Consumption}
    (gapless : service.Gapless stored (.turn (.callback error messages)))
    (stepped : (consumption config).step service.current (.callback error messages) =
      some current) : Safe stored base { service with current } := by
  have consistent := safe.consistent.step gapless.1 stepped
  obtain ⟨position, advanced, answered⟩ := Option.bind_eq_some_iff.mp stepped
  obtain ⟨runner, ran, rfl⟩ := Option.map_eq_some_iff.mp answered
  obtain ⟨added, appended, delivered, silent⟩ := callback_calls ran
  have kept : service.settled ⊆ Service.settled { service with current := ⟨runner, position⟩ } :=
    settled_subset appended
  have same : Service.issued { service with current := ⟨runner, position⟩ } = service.issued := by
    rw [Service.issued, appended, List.flatMap_append, silent, List.append_nil]
    rfl
  constructor
  · exact consistent
  · intro message present reached passed
    have split : KafkaRunner.handed runner.calls =
        KafkaRunner.handed service.current.runner.calls ++ KafkaRunner.handed added := by
      rw [appended, handed_append]
    rw [split]
    rcases Nat.lt_or_ge message.offset (service.current.position message.topicPartition) with
      old | new
    · exact List.mem_append_left _ (safe.handed message present reached old)
    · exact List.mem_append_right _
        (delivered (mem_of_consecutive gapless.2 advanced present new passed))
  · exact safe.before
  · rw [same]
    exact fun offset listed message present reached past =>
      kept (safe.issued offset listed message present reached past)
  · exact safe.committed.mono kept

theorem Safe.turn (safe : Safe stored base service) {event : Event} {current : Consumption}
    (silent : ∀ error messages, event ≠ .callback error messages)
    (stepped : (consumption config).step service.current event = some current) :
    Safe stored base { service with current } := by
  have takes : Takes service.current event := by
    cases event with
    | callback error messages => exact absurd rfl (silent error messages)
    | _ => trivial
  have consistent := safe.consistent.step takes stepped
  obtain ⟨runner, ran, rfl⟩ : ∃ runner, step config service.current.runner event = some runner ∧
      ⟨runner, service.current.position⟩ = current := by
    cases event with
    | callback error messages => exact absurd rfl (silent error messages)
    | _ => exact Option.map_eq_some_iff.mp stepped
  obtain ⟨added, appended, quiet, bounded⟩ := turn_commits safe.consistent silent ran
  have kept : service.settled ⊆
      Service.settled { service with current := ⟨runner, service.current.position⟩ } :=
    settled_subset appended
  have delivered : KafkaRunner.handed runner.calls =
      KafkaRunner.handed service.current.runner.calls := by
    rw [appended, handed_append, quiet, List.append_nil]
  constructor
  · exact consistent
  · intro message present reached passed
    rw [delivered]
    exact safe.handed message present reached passed
  · exact safe.before
  · intro offset listed message present reached past
    have listed : offset ∈ service.issued ++ added.flatMap Call.commits := by
      rwa [Service.issued, List.append_assoc, ← List.flatMap_append, ← appended]
    rcases List.mem_append.mp listed with old | new
    · exact kept (safe.issued offset old message present reached past)
    · rcases Nat.lt_or_ge message.offset (service.origin message.topicPartition) with early | late
      · exact List.mem_append_left _ (safe.before message present reached early)
      · -- The runner has been handed the message before the commit, which is recorded.
        have below : message.offset < service.current.position message.topicPartition := by
          rw [past.1]
          exact past.2.trans_le (bounded offset new)
        have known := safe.handed message present late below
        obtain ⟨call, member, commits⟩ := List.mem_flatMap.mp new
        obtain ⟨front, back, rfl⟩ := List.append_of_mem member
        have recorded := consistent.orderly.recorded
          (service.current.runner.calls ++ front) call back
          (by rw [appended, List.append_assoc]) offset commits message
          (by rw [handed_append]; exact List.mem_append_left _ known) past
        refine List.mem_append_right _ ?_
        rw [appended, ← List.append_assoc, settled_append]
        exact List.mem_append_left _ recorded
  · exact safe.committed.mono kept

theorem Safe.step (safe : Safe stored base service) {event : Service.Event}
    (gapless : service.Gapless stored event)
    (stepped : (Service.system config).step service event = some after) :
    Safe stored base after := by
  cases event with
  | turn event =>
      obtain ⟨current, ran, rfl⟩ := Option.map_eq_some_iff.mp stepped
      by_cases answers : ∃ error messages, event = .callback error messages
      · obtain ⟨error, messages, rfl⟩ := answers
        exact safe.callback gapless ran
      · exact safe.turn (fun error messages same => answers ⟨error, messages, same⟩) ran
  | land offset =>
      simp only [Service.system, Service.step, Option.ite_none_right_eq_some, Option.some.injEq]
        at stepped
      obtain ⟨listed, rfl⟩ := stepped
      refine ⟨safe.consistent, safe.handed, safe.before, safe.issued, ?_⟩
      intro message present reached passed
      by_cases same : message.topicPartition = offset.topicPartition
      · have passed : message.offset < offset.offset := by
          simpa [same] using passed
        exact safe.issued offset listed message present reached ⟨same, passed⟩
      · have passed : message.offset < service.committed message.topicPartition := by
          simpa [Function.update_of_ne same] using passed
        exact safe.committed message present reached passed
  | restart =>
      obtain rfl := Option.some.inj stepped
      have kept : ∀ message ∈ service.settled, message ∈ service.settled ++
          KafkaRunner.settled (State.started config).calls :=
        fun _ member => List.mem_append_left _ member
      refine ⟨consistent_started config service.committed, ?_, safe.committed, ?_,
        safe.committed.mono kept⟩
      · exact fun message _ reached passed => absurd reached (Nat.not_le_of_lt passed)
      · intro offset listed message present reached past
        have listed : offset ∈ service.issued ++
            (State.started config).calls.flatMap Call.commits := listed
        rcases List.mem_append.mp listed with old | new
        · exact kept message (safe.issued offset old message present reached past)
        · simp [State.started, State.consume, State.called, Call.commits] at new

end Steps

/-- However often a runner crashes, and whichever of its commits are carried out, each message
before a committed offset has been settled by some runner. -/
theorem restarts_lose_nothing (config : KafkaConfiguration) {stored : TopicPartitionOffset → Prop}
    {base : TopicPartition → Nat} {events : List Service.Event} {final : Service}
    (gapless : (Service.system config).Along (Service.Gapless stored) events
      (.initial config base))
    (execution : (Service.system config).run events (.initial config base) = some final) :
    Covers stored base final.committed final.settled := by
  have safe : Safe stored base final :=
    System.invariant_run (fun _ _ _ safe gapless stepped => safe.step gapless stepped)
      (safe_initial stored config base) gapless execution
  exact safe.committed

/-- A runner crashes while it handles a message, which the next runner is handed again. -/
def crashRun : List Service.Event :=
  [.turn (.callback false [order 0]), .turn (.start 0 (order 0)), .restart,
    .turn (.callback false [order 0]), .turn (.start 0 (order 0)),
    .turn (.settle 0 (order 0) true), .turn (.finish 0 1), .land (order 1)]

theorem crashRun_gapless : (Service.system {}).Along (Service.Gapless (· = order 0)) crashRun
    (.initial {} fun _ => 0) := by
  have first : Consecutive (· = order 0) [order 0] fun _ => 0 :=
    ⟨fun skipped _ _ _ => Nat.zero_le _, trivial⟩
  have taken : ∀ service : Service, service.current = ⟨.started {}, fun _ => 0⟩ →
      service.Gapless (· = order 0) (.turn (.callback false [order 0])) := by
    intro service begun
    rw [Service.Gapless, begun]
    exact ⟨.inr (.inr ⟨rfl, rfl⟩), first⟩
  exact .cons (taken _ rfl) rfl <| .cons trivial rfl <| .cons trivial rfl <|
    .cons (taken _ rfl) rfl <| .cons trivial rfl <| .cons trivial rfl <| .cons trivial rfl <|
      .cons trivial rfl trivial

/-- The message has settled when the offset after it is committed. -/
theorem crashRun_loses_nothing : ∃ final,
    (Service.system {}).run crashRun (.initial {} fun _ => 0) = some final ∧
    final.committed ("orders", 0) = 1 ∧
      Covers (· = order 0) (fun _ => 0) final.committed final.settled := by
  refine ⟨_, rfl, rfl, ?_⟩
  exact restarts_lose_nothing {} crashRun_gapless rfl

end KafkaRunner

end Steveo
