import Steveo.Kafka.Runner

/-!
# Commits and settled messages

A runner started by one consume request commits an offset only when every earlier message of the
partition that was handed over has settled, as long as no message is handed over to a callback that
drops it.  A paused runner drops what it is handed, and a later batch commits past it.
-/

namespace Steveo

namespace KafkaRunner

/-- The messages that a call hands over. -/
def Call.deliveries : Call → List TopicPartitionOffset
  | .handed messages => messages
  | _ => []

/-- The messages that a call settles. -/
def Call.settlements : Call → List TopicPartitionOffset
  | .settled message _ => [message]
  | _ => []

/-- The messages that have been handed over. -/
def handed (calls : List Call) : List TopicPartitionOffset := calls.flatMap Call.deliveries

/-- The messages whose `receive` has settled. -/
def settled (calls : List Call) : List TopicPartitionOffset := calls.flatMap Call.settlements

@[simp] theorem handed_append (earlier later : List Call) :
    handed (earlier ++ later) = handed earlier ++ handed later :=
  List.flatMap_append

@[simp] theorem settled_append (earlier later : List Call) :
    settled (earlier ++ later) = settled earlier ++ settled later :=
  List.flatMap_append

@[simp] theorem handed_singleton (call : Call) : handed [call] = call.deliveries := by
  simp [handed]

@[simp] theorem settled_singleton (call : Call) : settled [call] = call.settlements := by
  simp [settled]

/-- A call that hands nothing over. -/
theorem handed_called (calls : List Call) {call : Call} (deliveries : call.deliveries = []) :
    handed (calls ++ [call]) = handed calls := by
  rw [handed_append, handed_singleton, deliveries, List.append_nil]

/-- A committed offset is past a message. -/
def Past (offset message : TopicPartitionOffset) : Prop :=
  message.topicPartition = offset.topicPartition ∧ message.offset < offset.offset

/-- Every message that is past a committed offset had settled by then if it had been handed over. -/
def Recorded (calls : List Call) : Prop :=
  ∀ earlier call later, calls = earlier ++ call :: later → ∀ offset ∈ call.commits,
    ∀ message ∈ handed earlier, Past offset message → message ∈ settled earlier

theorem recorded_nil : Recorded [] := by
  intro earlier call later empty
  simp at empty

theorem recorded_append_iff (calls : List Call) (call : Call) :
    Recorded (calls ++ [call]) ↔
      Recorded calls ∧ ∀ offset ∈ call.commits, ∀ message ∈ handed calls, Past offset message →
        message ∈ settled calls := by
  constructor
  · intro recorded
    constructor
    · intro earlier found later split
      exact recorded earlier found (later ++ [call]) (by simp [split])
    · exact recorded calls call [] rfl
  · rintro ⟨recorded, last⟩ earlier found later split
    rcases List.eq_nil_or_concat later with rfl | ⟨front, final, rfl⟩
    · obtain ⟨rfl, same⟩ := List.append_inj' split rfl
      obtain rfl := (List.cons.inj same).1
      exact last
    · rw [List.concat_eq_append, ← List.cons_append, ← List.append_assoc] at split
      obtain ⟨rfl, -⟩ := List.append_inj' split rfl
      exact recorded earlier found front rfl

/-- A message has been handed over and has not settled. -/
def Pending (calls : List Call) (message : TopicPartitionOffset) : Prop :=
  message ∈ handed calls ∧ message ∉ settled calls

/-! ## What holds of the calls -/

/-- The calls, the processed offsets and the client's positions fit together: no commit has passed
a pending message, and the processed offsets do not either. -/
structure Orderly (calls : List Call) (processed : List TopicPartitionOffset)
    (position : TopicPartition → Nat) : Prop where
  recorded : Recorded calls
  handed_lt : ∀ message ∈ handed calls, message.offset < position message.topicPartition
  processed_le : ∀ offset ∈ processed, offset.offset ≤ position offset.topicPartition
  ahead : ∀ message, Pending calls message → ∀ offset ∈ processed, ¬ Past offset message

namespace Orderly

variable {calls : List Call} {processed : List TopicPartitionOffset}
  {position : TopicPartition → Nat}

/-- A call that commits nothing and hands nothing over keeps the order. -/
theorem called (orderly : Orderly calls processed position) {call : Call}
    (commits : call.commits = []) (deliveries : call.deliveries = []) :
    Orderly (calls ++ [call]) processed position := by
  constructor
  · rw [recorded_append_iff, commits]
    exact ⟨orderly.recorded, by simp⟩
  · rw [handed_called calls deliveries]
    exact orderly.handed_lt
  · exact orderly.processed_le
  · rintro message ⟨delivered, unsettled⟩
    rw [handed_called calls deliveries] at delivered
    rw [settled_append, List.mem_append, not_or] at unsettled
    exact orderly.ahead message ⟨delivered, unsettled.1⟩

theorem handed (orderly : Orderly calls processed position)
    {messages : List TopicPartitionOffset} {after : TopicPartition → Nat}
    (advanced : advance messages position = some after) :
    Orderly (calls ++ [.handed messages]) processed after := by
  obtain ⟨grows, fresh⟩ := advance_spec advanced
  constructor
  · rw [recorded_append_iff]
    exact ⟨orderly.recorded, by simp [Call.commits]⟩
  · intro message delivered
    rw [handed_append, handed_singleton, List.mem_append] at delivered
    rcases delivered with delivered | delivered
    · exact (orderly.handed_lt message delivered).trans_le (grows _)
    · exact (fresh message delivered).2
  · exact fun offset member => (orderly.processed_le offset member).trans (grows _)
  · rintro message ⟨delivered, unsettled⟩ offset member past
    rw [settled_append, List.mem_append, not_or] at unsettled
    rw [handed_append, handed_singleton, List.mem_append] at delivered
    rcases delivered with delivered | delivered
    · exact orderly.ahead message ⟨delivered, unsettled.1⟩ offset member past
    · have reached := (fresh message delivered).1
      have processed := orderly.processed_le offset member
      rw [past.1] at reached
      have passed := past.2
      omega

/-- The offsets processed so far can be committed at any time. -/
theorem flush (orderly : Orderly calls processed position) :
    Orderly (calls ++ [.commitSync processed]) [] position := by
  constructor
  · rw [recorded_append_iff]
    refine ⟨orderly.recorded, fun offset committed message delivered past => ?_⟩
    by_contra unsettled
    exact orderly.ahead message ⟨delivered, unsettled⟩ offset committed past
  · rw [handed_called calls rfl]
    exact orderly.handed_lt
  · simp
  · simp

/-- Where nothing is pending, a message that was handed over can be committed. -/
theorem commit (orderly : Orderly calls processed position)
    (idle : ∀ message, ¬ Pending calls message) {committed : TopicPartitionOffset}
    (delivered : committed ∈ KafkaRunner.handed calls) {later : List TopicPartitionOffset}
    (remembered : ∀ offset ∈ later, offset = committed.next ∨ offset ∈ processed) :
    Orderly (calls ++ [.commitMessage committed]) later position := by
  have settles : ∀ message ∈ KafkaRunner.handed calls, message ∈ settled calls :=
    fun message member => by_contra fun unsettled => idle message ⟨member, unsettled⟩
  constructor
  · rw [recorded_append_iff]
    exact ⟨orderly.recorded, fun _ _ message member _ => settles message member⟩
  · rw [handed_called calls rfl]
    exact orderly.handed_lt
  · intro offset member
    rcases remembered offset member with rfl | member
    · exact orderly.handed_lt committed delivered
    · exact orderly.processed_le offset member
  · rintro message ⟨member, unsettled⟩
    rw [handed_called calls rfl] at member
    rw [settled_append, List.mem_append, not_or] at unsettled
    exact (unsettled.1 (settles message member)).elim

end Orderly

/-! ## Runs of a runner that was started once -/

/-- A runner together with the positions of its client. -/
structure Consumption where
  runner : State
  position : TopicPartition → Nat

/-- A runner whose client hands over the messages of every partition in offset order. -/
def consumption (config : KafkaConfiguration) : System Consumption Event where
  step before event :=
    match event with
    | .callback error messages =>
        (advance messages before.position).bind fun position =>
          (step config before.runner (.callback error messages)).map fun runner =>
            ⟨runner, position⟩
    | _ => (step config before.runner event).map fun runner => ⟨runner, before.position⟩

/-- The callback does not drop messages that it will pass later: it is not paused and there is no
error where there are messages, unless the runner is stopping. -/
def Takes (before : Consumption) : Event → Prop
  | .callback error messages =>
      messages = [] ∨ before.runner.manager.shouldTerminate = true ∨
        before.runner.manager = .running ∧ error = false
  | _ => True

/-- There is one chain of requests, and while it lives every pending message is in its batch. -/
structure Consistent (state : Consumption) : Prop where
  orderly : Orderly state.runner.calls state.runner.processedOffsets.values state.position
  chain : state.runner.outstanding ≤ 1
  batched : ∀ batch ∈ state.runner.batches, ∀ message ∈ batch.messages,
    message ∈ handed state.runner.calls
  alive : 0 < state.runner.outstanding →
    ∀ message, Pending state.runner.calls message →
      ∃ batch ∈ state.runner.batches, message ∈ batch.waiting ∨ message ∈ batch.running

/-- Between two requests nothing is outstanding and nothing is pending. -/
structure Quiet (state : State) (position : TopicPartition → Nat) : Prop where
  orderly : Orderly state.calls state.processedOffsets.values position
  requests : state.requests = 0
  sleeping : state.sleeping = 0
  batches : state.batches = []
  idle : ∀ message, ¬ Pending state.calls message

theorem not_pending_called {calls : List Call} (idle : ∀ message, ¬ Pending calls message)
    {call : Call} (deliveries : call.deliveries = []) (message : TopicPartitionOffset) :
    ¬ Pending (calls ++ [call]) message := by
  rintro ⟨delivered, unsettled⟩
  rw [handed_called calls deliveries] at delivered
  rw [settled_append, List.mem_append, not_or] at unsettled
  exact idle message ⟨delivered, unsettled.1⟩

namespace Quiet

variable {state : State} {position : TopicPartition → Nat}

theorem called (quiet : Quiet state position) {call : Call} (commits : call.commits = [])
    (deliveries : call.deliveries = []) : Quiet (state.called call) position where
  orderly := quiet.orderly.called commits deliveries
  requests := quiet.requests
  sleeping := quiet.sleeping
  batches := quiet.batches
  idle := not_pending_called quiet.idle deliveries

theorem consume (quiet : Quiet state position) (config : KafkaConfiguration) :
    Consistent ⟨state.consume config, position⟩ where
  orderly := quiet.orderly.called rfl rfl
  chain := by
    simp [State.outstanding, State.consume, State.called, quiet.requests, quiet.sleeping,
      quiet.batches]
  batched := by simp [State.consume, State.called, quiet.batches]
  alive := fun _ message pending => by
    have idle : ¬ Pending (state.calls ++ [.consume config.getBatchSize]) message :=
      not_pending_called quiet.idle rfl message
    exact (idle pending).elim

theorem commit (quiet : Quiet state position) {entry : String × TopicPartitionOffset}
    (delivered : entry.2 ∈ handed state.calls) : Quiet (state.commit entry) position where
  orderly := by
    apply quiet.orderly.commit quiet.idle delivered
    intro offset member
    exact (Dictionary.mem_values_set member)
  requests := quiet.requests
  sleeping := quiet.sleeping
  batches := quiet.batches
  idle := not_pending_called quiet.idle rfl

theorem commits (quiet : Quiet state position) {entries : List (String × TopicPartitionOffset)}
    (delivered : ∀ entry ∈ entries, entry.2 ∈ handed state.calls) :
    Quiet (entries.foldl State.commit state) position := by
  induction entries generalizing state with
  | nil => exact quiet
  | cons entry entries induction =>
      rw [List.forall_mem_cons] at delivered
      apply induction (quiet.commit delivered.1)
      intro other member
      rw [State.commit, State.called, handed_called _ rfl]
      exact delivered.2 other member

theorem handed_report (state : State) (batch : Batch) :
    handed (state.report batch).calls = handed state.calls := by
  rw [State.report]
  split
  · exact (handed_called _ rfl).trans (handed_called _ rfl)
  · exact handed_called _ rfl

theorem report (quiet : Quiet state position) (batch : Batch) :
    Quiet (state.report batch) position := by
  rw [State.report]
  split
  · exact (quiet.called rfl rfl).called rfl rfl
  · exact quiet.called rfl rfl

end Quiet

/-! ### One event -/

section Steps

variable {config : KafkaConfiguration} {before : Consumption} (consistent : Consistent before)

include consistent

/-- While a request is outstanding no message is pending. -/
theorem Consistent.idle (requested : 0 < before.runner.requests + before.runner.sleeping)
    (message : TopicPartitionOffset) : ¬ Pending before.runner.calls message := by
  intro pending
  have chain := consistent.chain
  rw [State.outstanding] at chain
  obtain ⟨batch, member, -⟩ :=
    consistent.alive (by rw [State.outstanding]; omega) message pending
  have none : before.runner.batches = [] := List.eq_nil_of_length_eq_zero (by omega)
  rw [none] at member
  contradiction

/-- After an answer without messages nothing is outstanding. -/
theorem Consistent.answered (requested : 0 < before.runner.requests)
    {position : TopicPartition → Nat} (advanced : advance [] before.position = some position) :
    Quiet ({ before.runner with requests := before.runner.requests - 1 }.called (.handed []))
      position := by
  obtain ⟨one, asleep, none⟩ := requested_only consistent.chain requested
  constructor
  · exact consistent.orderly.handed advanced
  · show before.runner.requests - 1 = 0
    omega
  · exact asleep
  · exact none
  · exact not_pending_called (consistent.idle (by omega)) rfl

/-- An answer whose messages fill a batch. -/
theorem Consistent.taken (requested : 0 < before.runner.requests)
    {messages : List TopicPartitionOffset} {position : TopicPartition → Nat}
    (bounded : messages.length ≤ config.getBatchSize)
    (advanced : advance messages before.position = some position) :
    Consistent ⟨({ before.runner with requests := before.runner.requests - 1 }.called
      (.handed messages)).processBatch config messages, position⟩ := by
  obtain ⟨one, asleep, none⟩ := requested_only consistent.chain requested
  have whole : messages.take (min messages.length config.getBatchSize) = messages := by
    rw [min_eq_left bounded, List.take_length]
  constructor
  · exact consistent.orderly.handed advanced
  · simp [State.outstanding, State.processBatch, State.called, one, asleep, none]
  · intro batch member message own
    obtain rfl : batch = ⟨messages, messages, [], 0⟩ := by
      simpa [State.processBatch, State.called, none, whole] using member
    simp only [State.processBatch, State.called, handed_append, handed_singleton, List.mem_append]
    exact Or.inr own
  · rintro _ message ⟨delivered, unsettled⟩
    refine ⟨⟨messages, messages, [], 0⟩, by simp [State.processBatch, State.called, none, whole],
      Or.inl ?_⟩
    simp only [State.processBatch, State.called, handed_append, settled_append, handed_singleton,
      List.mem_append, not_or] at delivered unsettled
    rcases delivered with delivered | delivered
    · exact (consistent.idle (by omega) message ⟨delivered, unsettled.1⟩).elim
    · exact delivered

theorem Consistent.callback {error : Bool} {messages : List TopicPartitionOffset}
    {after : State} {position : TopicPartition → Nat}
    (takes : Takes before (.callback error messages))
    (advanced : advance messages before.position = some position)
    (stepped : step config before.runner (.callback error messages) = some after) :
    Consistent ⟨after, position⟩ := by
  obtain ⟨requested, bounded, rfl⟩ := step_callback stepped
  have managed : (({ before.runner with requests := before.runner.requests - 1 }.called
      (.handed messages)).manager) = before.runner.manager := rfl
  rw [State.consumeCallback, managed]
  split
  · obtain ⟨one, asleep, none⟩ := requested_only consistent.chain requested
    constructor
    · exact (consistent.orderly.handed advanced).called rfl rfl
    · simp [State.outstanding, State.shutdown, State.called, one, asleep, none]
    · simp [State.shutdown, State.called, none]
    · simp [State.outstanding, State.shutdown, State.called, one, asleep, none]
  · rename_i continues
    have empty : before.runner.manager = .paused ∨ error = true → messages = [] := by
      intro dropping
      rcases takes with empty | stopping | ⟨running, correct⟩
      · exact empty
      · exact absurd stopping continues
      · rcases dropping with paused | failed
        · rw [running] at paused
          contradiction
        · rw [correct] at failed
          contradiction
    split
    · rename_i paused
      obtain rfl := empty (Or.inl paused)
      have quiet := consistent.answered requested advanced
      constructor
      · exact quiet.orderly
      · simp [State.outstanding, quiet.requests, quiet.sleeping, quiet.batches]
      · simp [quiet.batches]
      · exact fun _ message pending => (quiet.idle message pending).elim
    · split
      · rename_i failed
        obtain rfl := empty (Or.inr failed)
        exact ((consistent.answered requested advanced).called rfl rfl).consume config
      · split
        · rename_i none
          obtain rfl := List.isEmpty_iff.mp none
          exact (consistent.answered requested advanced).consume config
        · exact consistent.taken requested bounded advanced

theorem Consistent.wake {after : State} (stepped : step config before.runner .wake = some after) :
    Consistent ⟨after, before.position⟩ := by
  obtain ⟨asleep, rfl⟩ := step_wake stepped
  have chain := consistent.chain
  rw [State.outstanding] at chain
  apply Quiet.consume
  exact
    { orderly := consistent.orderly
      requests := by show before.runner.requests = 0; omega
      sleeping := by show before.runner.sleeping - 1 = 0; omega
      batches := List.eq_nil_of_length_eq_zero (by show before.runner.batches.length = 0; omega)
      idle := consistent.idle (by omega) }

theorem Consistent.start {index : Nat} {message : TopicPartitionOffset} {after : State}
    (stepped : step config before.runner (.start index message) = some after) :
    Consistent ⟨after, before.position⟩ := by
  obtain ⟨batch, found, waits, rfl⟩ := step_start stepped
  obtain ⟨rfl, batches, requests, sleeping⟩ := processing_only consistent.chain found
  constructor
  · exact consistent.orderly
  · exact (outstanding_step stepped).trans consistent.chain
  · intro other member
    obtain rfl : other = batch.start message := by simpa [batches] using member
    exact consistent.batched batch (by simp [batches])
  · intro _ other pending
    refine ⟨batch.start message, by simp [batches], ?_⟩
    obtain ⟨known, member, kept⟩ :=
      consistent.alive (by simp [State.outstanding, batches]) other pending
    obtain rfl : known = batch := by simpa [batches] using member
    by_cases same : other = message
    · subst same
      exact Or.inr List.mem_cons_self
    · exact kept.imp (List.mem_erase_of_ne same).mpr (List.mem_cons_of_mem message)

theorem Consistent.settle {index : Nat} {message : TopicPartitionOffset} {fulfilled : Bool}
    {after : State}
    (stepped : step config before.runner (.settle index message fulfilled) = some after) :
    Consistent ⟨after, before.position⟩ := by
  obtain ⟨batch, found, runs, rfl⟩ := step_settle stepped
  obtain ⟨rfl, batches, requests, sleeping⟩ := processing_only consistent.chain found
  constructor
  · exact consistent.orderly.called rfl rfl
  · exact (outstanding_step stepped).trans consistent.chain
  · intro other member
    obtain rfl : other = batch.settle message fulfilled := by
      simpa [batches, State.called] using member
    rw [State.called, handed_called _ rfl]
    exact consistent.batched batch (by simp [batches])
  · rintro _ other ⟨delivered, unsettled⟩
    rw [State.called, handed_called _ rfl] at delivered
    rw [State.called, settled_append, List.mem_append, not_or] at unsettled
    have different : other ≠ message := by
      rintro rfl
      exact unsettled.2 (by simp [Call.settlements])
    refine ⟨batch.settle message fulfilled, by simp [batches, State.called], ?_⟩
    obtain ⟨known, member, kept⟩ :=
      consistent.alive (by simp [State.outstanding, batches]) other ⟨delivered, unsettled.1⟩
    obtain rfl : known = batch := by simpa [batches] using member
    exact kept.imp_right (List.mem_erase_of_ne different).mpr

theorem Consistent.flushed : Consistent ⟨before.runner.flushOffsets, before.position⟩ := by
  rw [State.flushOffsets]
  split
  · exact consistent
  · constructor
    · exact consistent.orderly.flush
    · exact consistent.chain
    · intro batch member message own
      rw [State.called, handed_called _ rfl]
      exact consistent.batched batch member message own
    · rintro outstanding message ⟨delivered, unsettled⟩
      rw [State.called, handed_called _ rfl] at delivered
      rw [State.called, settled_append, List.mem_append, not_or] at unsettled
      exact consistent.alive outstanding message ⟨delivered, unsettled.1⟩

theorem Consistent.finish {index accepted : Nat} {after : State}
    (stepped : step config before.runner (.finish index accepted) = some after) :
    Consistent ⟨after, before.position⟩ := by
  obtain ⟨batch, found, waiting, running, rfl⟩ := step_finish stepped
  obtain ⟨rfl, batches, requests, sleeping⟩ := processing_only consistent.chain found
  have quiet : Quiet { before.runner with batches := before.runner.batches.eraseIdx 0 }
      before.position := by
    constructor
    · exact consistent.orderly
    · exact requests
    · exact sleeping
    · simp [batches]
    · intro message pending
      obtain ⟨known, member, kept⟩ :=
        consistent.alive (by simp [State.outstanding, batches]) message pending
      obtain rfl : known = batch := by simpa [batches] using member
      simp [waiting, running] at kept
  apply Quiet.consume
  apply (quiet.report batch).commits
  intro entry member
  have own := (mem_highestPerPartition (List.mem_of_mem_take member)).1
  rw [Quiet.handed_report]
  exact consistent.batched batch (by simp [batches]) entry.2 own

/-- Every event that does not drop messages keeps the runner consistent. -/
theorem Consistent.step {event : Event} {after : Consumption} (takes : Takes before event)
    (stepped : (consumption config).step before event = some after) : Consistent after := by
  cases event with
  | callback error messages =>
      obtain ⟨position, advanced, answered⟩ := Option.bind_eq_some_iff.mp stepped
      obtain ⟨runner, ran, rfl⟩ := Option.map_eq_some_iff.mp answered
      exact consistent.callback takes advanced ran
  | wake =>
      obtain ⟨runner, ran, rfl⟩ := Option.map_eq_some_iff.mp stepped
      exact consistent.wake ran
  | start index message =>
      obtain ⟨runner, ran, rfl⟩ := Option.map_eq_some_iff.mp stepped
      exact consistent.start ran
  | settle index message fulfilled =>
      obtain ⟨runner, ran, rfl⟩ := Option.map_eq_some_iff.mp stepped
      exact consistent.settle ran
  | finish index accepted =>
      obtain ⟨runner, ran, rfl⟩ := Option.map_eq_some_iff.mp stepped
      exact consistent.finish ran
  | revoke =>
      obtain rfl := Option.some.inj stepped
      exact consistent.flushed
  | pause =>
      obtain rfl := Option.some.inj stepped
      exact ⟨consistent.orderly, consistent.chain, consistent.batched, consistent.alive⟩
  | resume =>
      obtain rfl := Option.some.inj stepped
      exact ⟨consistent.orderly, consistent.chain, consistent.batched, consistent.alive⟩
  | stop =>
      obtain rfl := Option.some.inj stepped
      split
      · exact consistent
      · exact ⟨consistent.orderly, consistent.chain, consistent.batched, consistent.alive⟩

end Steps

/-! ### Whole runs -/

theorem consistent_started (config : KafkaConfiguration) (position : TopicPartition → Nat) :
    Consistent ⟨.started config, position⟩ := by
  apply Quiet.consume
  constructor
  · exact ⟨recorded_nil, by simp [handed], by simp [Dictionary.values, Dictionary.empty],
      by simp [Dictionary.values, Dictionary.empty]⟩
  · rfl
  · rfl
  · rfl
  · rintro message ⟨delivered, -⟩
    simp [handed] at delivered

/-- No commit passes an unsettled message in a run in which no callback drops messages. -/
theorem consumption_recorded (config : KafkaConfiguration) (position : TopicPartition → Nat)
    (events : List Event) (final : Consumption)
    (taken : (consumption config).Along Takes events ⟨.started config, position⟩)
    (execution : (consumption config).run events ⟨.started config, position⟩ = some final) :
    Recorded final.runner.calls := by
  have consistent : Consistent final :=
    System.invariant_run (fun _ _ _ known takes stepped => known.step takes stepped)
      (consistent_started config position) taken execution
  exact consistent.orderly.recorded

/-- A message that is handed over while the runner runs is committed after it has settled. -/
theorem running_recorded :
    ∃ final, (consumption {}).run
        [.callback false [order 0], .start 0 (order 0), .settle 0 (order 0) false, .finish 0 1,
          .revoke] ⟨.started {}, fun _ => 0⟩ = some final ∧
      final.runner.calls.flatMap Call.commits = [order 1, order 1] ∧
        Recorded final.runner.calls := by
  refine ⟨_, rfl, rfl, consumption_recorded {} (fun _ => 0)
    [.callback false [order 0], .start 0 (order 0), .settle 0 (order 0) false, .finish 0 1,
      .revoke] _ ?_ rfl⟩
  refine ⟨Or.inr (Or.inr ⟨rfl, rfl⟩), fun _ _ => ⟨trivial, fun _ _ => ⟨trivial, fun _ _ => ?_⟩⟩⟩
  exact ⟨trivial, fun _ _ => ⟨trivial, fun _ _ => trivial⟩⟩

/-- A paused runner drops the first message, and the commit of the second passes it. -/
theorem paused_passes :
    ∃ final, (consumption {}).run
        [.pause, .callback false [order 0], .wake, .resume, .callback false [order 1],
          .start 0 (order 1), .settle 0 (order 1) true, .finish 0 1]
        ⟨.started {}, fun _ => 0⟩ = some final ∧
      final.runner.calls.flatMap Call.commits = [order 2] ∧ ¬ Recorded final.runner.calls := by
  refine ⟨_, rfl, rfl, fun recorded => ?_⟩
  have dropped : order 0 ∈ settled [.consume 1, .handed [order 0], .consume 1, .handed [order 1],
      .settled (order 1) true, .batchProcessed 1 1 0] :=
    recorded _ (.commitMessage (order 1)) [.consume 1] rfl (order 2) (by decide) (order 0)
      (by decide) ⟨rfl, by decide⟩
  exact absurd dropped (by decide)

end KafkaRunner

end Steveo
