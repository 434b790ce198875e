import Mathlib.Logic.Function.Basic
import Mathlib.Order.Basic
import Steveo.Library.Dictionary
import Steveo.Library.Execution
import Steveo.Messaging.Runner
import Steveo.Runtime.Manager

/-!
# The consume loop of the Kafka runner

This file models the consume callback, the processing of a batch, and the two ways in which offsets
are committed.  The calls of `receive` of one batch start and settle in any order that the
concurrency limit allows, and everything else happens between two turns of the event loop.
-/

namespace Steveo

/-- A partition of a topic. -/
abbrev TopicPartition := String × Nat

namespace TopicPartitionOffset

/-- The partition of a position. -/
def topicPartition (position : TopicPartitionOffset) : TopicPartition :=
  (position.topic, position.partition)

/-- The key of a position in the runner's maps. -/
def key (position : TopicPartitionOffset) : String :=
  position.topic ++ "/" ++ toString position.partition

/-- The position after a message. -/
def next (message : TopicPartitionOffset) : TopicPartitionOffset :=
  { message with offset := message.offset + 1 }

theorem key_eq_of_topicPartition {left right : TopicPartitionOffset}
    (same : left.topicPartition = right.topicPartition) : left.key = right.key := by
  obtain ⟨topics, partitions⟩ := Prod.mk.inj same
  rw [key, key, topics, partitions]

end TopicPartitionOffset

/-- A feature that can be enabled and has a limit. -/
structure Limit where
  enabled : Bool
  limit : Option Nat

/-- The part of the Kafka configuration that the consume loop reads. -/
structure KafkaConfiguration where
  /-- Batching and the size of a batch. -/
  batchProcessing : Option Limit := none
  /-- Limited concurrency and the number of messages handled at once. -/
  concurrency : Option Limit := none

namespace KafkaConfiguration

/-- The limit of an enabled feature, with a default for an absent or zero limit. -/
def enabledLimit (feature : Option Limit) (default : Nat) : Option Nat :=
  match feature with
  | some ⟨true, some 0⟩ | some ⟨true, none⟩ => some default
  | some ⟨true, some (limit + 1)⟩ => some (limit + 1)
  | some ⟨false, _⟩ | none => none

/-- The number of messages asked of the client at once. -/
def getBatchSize (config : KafkaConfiguration) : Nat :=
  (enabledLimit config.batchProcessing 5).getD 1

/-- The number of messages of a batch that are handled at once. -/
def maxConcurrent (config : KafkaConfiguration) (batch : List TopicPartitionOffset) : Nat :=
  (enabledLimit config.concurrency 10).getD batch.length

end KafkaConfiguration

namespace KafkaRunner

/-- The observable calls of the consume loop.  Of a message only the position is kept. -/
inductive Call
  | consume (count : Nat)
  | handed (messages : List TopicPartitionOffset)
  | settled (message : TopicPartitionOffset) (fulfilled : Bool)
  | commitMessage (message : TopicPartitionOffset)
  | commitSync (offsets : List TopicPartitionOffset)
  | disconnect
  | connectionFailure
  | batchProcessed (batchSize succeeded failed : Nat)
  | batchFailure (batchSize failureCount : Nat)

/-- The offsets that a call commits. -/
def Call.commits : Call → List TopicPartitionOffset
  | .commitMessage message => [message.next]
  | .commitSync offsets => offsets
  | _ => []

/-- A batch in progress. -/
structure Batch where
  messages : List TopicPartitionOffset
  /-- Messages for which `receive` has not been called. -/
  waiting : List TopicPartitionOffset
  /-- Messages for which `receive` has been called and has not settled. -/
  running : List TopicPartitionOffset
  failures : Nat

/-- The state of a runner between two turns of the event loop. -/
structure State where
  manager : RunnerState
  processedOffsets : Dictionary String TopicPartitionOffset
  /-- Consume requests that the client has not answered. -/
  requests : Nat
  /-- Callbacks that wait until they ask again. -/
  sleeping : Nat
  batches : List Batch
  calls : List Call

namespace State

/-- The state with one more call. -/
def called (state : State) (call : Call) : State := { state with calls := state.calls ++ [call] }

/-- Ask the client for messages. -/
def consume (config : KafkaConfiguration) (state : State) : State :=
  { state with requests := state.requests + 1 }.called (.consume config.getBatchSize)

/-- Stop consuming. -/
def shutdown (state : State) : State := { state with manager := .terminated }.called .disconnect

/-- Begin to process the first messages of a list. -/
def processBatch (config : KafkaConfiguration) (messages : List TopicPartitionOffset)
    (state : State) : State :=
  let batch := messages.take (min messages.length config.getBatchSize)
  { state with
    batches := state.batches ++
      [{ messages := batch, waiting := batch, running := [], failures := 0 }] }

/-- The client's answer to a consume request. -/
def consumeCallback (config : KafkaConfiguration) (error : Bool)
    (messages : List TopicPartitionOffset) (state : State) : State :=
  if state.manager.shouldTerminate then
    state.shutdown
  else if state.manager = .paused then
    { state with sleeping := state.sleeping + 1 }
  else if error then
    (state.called .connectionFailure).consume config
  else if messages.isEmpty then
    state.consume config
  else
    state.processBatch config messages

/-- Remember a message of a batch as the highest of its partition. -/
def raise (highest : Dictionary String TopicPartitionOffset) (message : TopicPartitionOffset) :
    Dictionary String TopicPartitionOffset :=
  match highest.get message.key with
  | none => highest.set message.key message
  | some known =>
      if message.offset > known.offset then highest.set message.key message else highest

/-- The highest message of every partition of a batch. -/
def highestPerPartition (batch : List TopicPartitionOffset) :
    Dictionary String TopicPartitionOffset :=
  batch.foldl raise .empty

/-- Commit one message and remember the position after it. -/
def commit (state : State) (entry : String × TopicPartitionOffset) : State :=
  { state with processedOffsets := state.processedOffsets.set entry.1 entry.2.next }.called
    (.commitMessage entry.2)

/-- Commit the highest message of every partition of a batch.  The client accepts some of the
commits and throws at the next one. -/
def commitBatch (accepted : Nat) (batch : List TopicPartitionOffset) (state : State) : State :=
  ((highestPerPartition batch).entries.take accepted).foldl commit state

/-- Report a batch whose messages have all settled. -/
def report (batch : Batch) (state : State) : State :=
  let size := batch.messages.length
  let reported := state.called (.batchProcessed size (size - batch.failures) batch.failures)
  if batch.failures > 0 then reported.called (.batchFailure size batch.failures) else reported

/-- Commit everything processed since the last revocation. -/
def flushOffsets (state : State) : State :=
  if state.processedOffsets.entries.isEmpty then
    state
  else
    { state with processedOffsets := .empty }.called (.commitSync state.processedOffsets.values)

end State

/-- A runner that has just asked for its first messages. -/
def State.started (config : KafkaConfiguration) : State :=
  { manager := .running, processedOffsets := .empty, requests := 0, sleeping := 0, batches := []
    calls := [] : State }.consume config

/-- What can happen to a runner. -/
inductive Event
  | callback (error : Bool) (messages : List TopicPartitionOffset)
  | wake
  | start (batch : Nat) (message : TopicPartitionOffset)
  | settle (batch : Nat) (message : TopicPartitionOffset) (fulfilled : Bool)
  | finish (batch accepted : Nat)
  | revoke
  | pause
  | resume
  | stop

/-- Call `receive` for one message of a batch. -/
def Batch.start (batch : Batch) (message : TopicPartitionOffset) : Batch :=
  { batch with waiting := batch.waiting.erase message, running := message :: batch.running }

/-- The call of `receive` for one message of a batch settles. -/
def Batch.settle (batch : Batch) (message : TopicPartitionOffset) (fulfilled : Bool) : Batch :=
  { batch with
    running := batch.running.erase message
    failures := if fulfilled then batch.failures else batch.failures + 1 }

/-- One turn of the event loop. -/
def step (config : KafkaConfiguration) (state : State) : Event → Option State
  | .callback error messages =>
      if 0 < state.requests ∧ messages.length ≤ config.getBatchSize then
        some (({ state with requests := state.requests - 1 }.called
          (.handed messages)).consumeCallback config error messages)
      else
        none
  | .wake =>
      if 0 < state.sleeping then
        some ({ state with sleeping := state.sleeping - 1 }.consume config)
      else
        none
  | .start index message =>
      state.batches[index]?.bind fun batch =>
        if message ∈ batch.waiting ∧ batch.running.length < config.maxConcurrent batch.messages then
          some { state with batches := state.batches.set index (batch.start message) }
        else
          none
  | .settle index message fulfilled =>
      state.batches[index]?.bind fun batch =>
        if message ∈ batch.running then
          some
            ({ state with
              batches := state.batches.set index (batch.settle message fulfilled) }.called
                (.settled message fulfilled))
        else
          none
  | .finish index accepted =>
      state.batches[index]?.bind fun batch =>
        if batch.waiting = [] ∧ batch.running = [] then
          some ((({ state with batches := state.batches.eraseIdx index }.report batch).commitBatch
            accepted batch.messages).consume config)
        else
          none
  | .revoke => some state.flushOffsets
  | .pause => some { state with manager := .paused }
  | .resume => some { state with manager := .running }
  | .stop =>
      some (if state.manager.shouldTerminate then state else { state with manager := .terminating })

/-! ## What one turn does -/

section Steps

variable {config : KafkaConfiguration} {before after : State}

theorem step_callback {error : Bool} {messages : List TopicPartitionOffset}
    (stepped : step config before (.callback error messages) = some after) :
    0 < before.requests ∧ messages.length ≤ config.getBatchSize ∧
      after = ({ before with requests := before.requests - 1 }.called
        (.handed messages)).consumeCallback config error messages := by
  simp only [step, Option.ite_none_right_eq_some, Option.some.injEq] at stepped
  exact ⟨stepped.1.1, stepped.1.2, stepped.2.symm⟩

theorem step_wake (stepped : step config before .wake = some after) :
    0 < before.sleeping ∧
      after = { before with sleeping := before.sleeping - 1 }.consume config := by
  simp only [step, Option.ite_none_right_eq_some, Option.some.injEq] at stepped
  exact ⟨stepped.1, stepped.2.symm⟩

theorem step_start {index : Nat} {message : TopicPartitionOffset}
    (stepped : step config before (.start index message) = some after) :
    ∃ batch, before.batches[index]? = some batch ∧ message ∈ batch.waiting ∧
      after = { before with batches := before.batches.set index (batch.start message) } := by
  obtain ⟨batch, found, started⟩ := Option.bind_eq_some_iff.mp stepped
  simp only [Option.ite_none_right_eq_some, Option.some.injEq] at started
  exact ⟨batch, found, started.1.1, started.2.symm⟩

theorem step_settle {index : Nat} {message : TopicPartitionOffset} {fulfilled : Bool}
    (stepped : step config before (.settle index message fulfilled) = some after) :
    ∃ batch, before.batches[index]? = some batch ∧ message ∈ batch.running ∧
      after =
        { before with batches := before.batches.set index (batch.settle message fulfilled) }.called
          (.settled message fulfilled) := by
  obtain ⟨batch, found, settled⟩ := Option.bind_eq_some_iff.mp stepped
  simp only [Option.ite_none_right_eq_some, Option.some.injEq] at settled
  exact ⟨batch, found, settled.1, settled.2.symm⟩

theorem step_finish {index accepted : Nat}
    (stepped : step config before (.finish index accepted) = some after) :
    ∃ batch, before.batches[index]? = some batch ∧ batch.waiting = [] ∧ batch.running = [] ∧
      after = (({ before with batches := before.batches.eraseIdx index }.report batch).commitBatch
        accepted batch.messages).consume config := by
  obtain ⟨batch, found, finished⟩ := Option.bind_eq_some_iff.mp stepped
  simp only [Option.ite_none_right_eq_some, Option.some.injEq] at finished
  exact ⟨batch, found, finished.1.1, finished.1.2, finished.2.symm⟩

/-- The requests, the sleeping callbacks and the batches of a runner. -/
def State.outstanding (state : State) : Nat :=
  state.requests + state.sleeping + state.batches.length

/-- Where one thing is outstanding and it is a request, nothing else is. -/
theorem requested_only (chain : before.outstanding ≤ 1) (requested : 0 < before.requests) :
    before.requests = 1 ∧ before.sleeping = 0 ∧ before.batches = [] := by
  rw [State.outstanding] at chain
  exact ⟨by omega, by omega, List.eq_nil_of_length_eq_zero (by omega)⟩

/-- Where one thing is outstanding and it is a batch, nothing else is. -/
theorem processing_only (chain : before.outstanding ≤ 1) {index : Nat} {batch : Batch}
    (found : before.batches[index]? = some batch) :
    index = 0 ∧ before.batches = [batch] ∧ before.requests = 0 ∧ before.sleeping = 0 := by
  rw [State.outstanding] at chain
  rcases batches : before.batches with _ | ⟨first, rest⟩
  · rw [batches] at found
    contradiction
  · rw [batches, List.length_cons] at chain
    obtain rfl : rest = [] := List.eq_nil_of_length_eq_zero (by omega)
    rw [batches] at found
    obtain ⟨rfl, rfl⟩ : index = 0 ∧ first = batch := by
      rcases index with _ | index
      · exact ⟨rfl, Option.some.inj found⟩
      · contradiction
    exact ⟨rfl, rfl, by omega, by omega⟩

theorem outstanding_consumeCallback (error : Bool) (messages : List TopicPartitionOffset) :
    (before.consumeCallback config error messages).outstanding ≤ before.outstanding + 1 := by
  rw [State.consumeCallback]
  repeat' split
  all_goals
    simp only [State.outstanding, State.shutdown, State.consume, State.processBatch, State.called,
      List.length_append, List.length_singleton]
    omega

theorem foldl_commit_spec (entries : List (String × TopicPartitionOffset)) (state : State) :
    entries.foldl State.commit state =
      { state with
        processedOffsets := entries.foldl (fun offsets entry => offsets.set entry.1 entry.2.next)
          state.processedOffsets
        calls := state.calls ++ entries.map fun entry => .commitMessage entry.2 } := by
  induction entries generalizing state with
  | nil => simp
  | cons entry entries induction =>
      rw [List.foldl_cons, induction]
      simp [State.commit, State.called]

/-- The calls that report a batch. -/
def reports (batch : Batch) : List Call :=
  let size := batch.messages.length
  .batchProcessed size (size - batch.failures) batch.failures ::
    if batch.failures > 0 then [.batchFailure size batch.failures] else []

theorem report_spec (batch : Batch) (state : State) :
    state.report batch = { state with calls := state.calls ++ reports batch } := by
  rw [State.report, reports]
  split
  · simp [State.called]
  · simp [State.called]

theorem commits_reports (batch : Batch) : (reports batch).flatMap Call.commits = [] := by
  rw [reports]
  split
  · rfl
  · rfl

/-- A finished batch leaves, reports, and commits messages of its own. -/
theorem finish_spec (config : KafkaConfiguration) (batch : Batch) (accepted : Nat) (state : State) :
    let entries := (State.highestPerPartition batch.messages).entries.take accepted
    let after := ((state.report batch).commitBatch accepted batch.messages).consume config
    after.batches = state.batches ∧
      after.processedOffsets = entries.foldl
        (fun offsets entry => offsets.set entry.1 entry.2.next) state.processedOffsets ∧
      ∃ added, after.calls = state.calls ++ added ∧
        added.flatMap Call.commits = entries.map fun entry => entry.2.next := by
  simp only [State.commitBatch, foldl_commit_spec, report_spec, State.consume, State.called]
  refine ⟨trivial, trivial, _, by rw [List.append_assoc, List.append_assoc], ?_⟩
  rw [List.flatMap_append, commits_reports, List.nil_append, List.flatMap_append,
    List.flatMap_map]
  simp only [Call.commits, List.flatMap_cons, List.flatMap_nil, List.append_nil]
  exact List.map_eq_flatMap.symm

/-- A flush commits what was remembered and forgets it. -/
theorem flushOffsets_spec (state : State) :
    state.flushOffsets.batches = state.batches ∧ state.flushOffsets.processedOffsets.entries = [] ∧
      ∃ added, state.flushOffsets.calls = state.calls ++ added ∧
        added.flatMap Call.commits = state.processedOffsets.entries.map Prod.snd := by
  rw [State.flushOffsets]
  split
  · rename_i empty
    have none := List.isEmpty_iff.mp empty
    exact ⟨rfl, none, [], by simp, by simp [none]⟩
  · exact ⟨rfl, rfl, [.commitSync state.processedOffsets.values], rfl, by
      simp [Call.commits, Dictionary.values]⟩

/-- A callback commits nothing, and a batch that it begins is made of its messages. -/
theorem consumeCallback_spec (config : KafkaConfiguration) (error : Bool)
    (messages : List TopicPartitionOffset) (state : State) :
    ∃ added, (state.consumeCallback config error messages).calls = state.calls ++ added ∧
      added.flatMap Call.commits = [] ∧
      (state.consumeCallback config error messages).processedOffsets = state.processedOffsets ∧
      ∀ batch ∈ (state.consumeCallback config error messages).batches,
        batch ∈ state.batches ∨ ∀ message ∈ batch.messages, message ∈ messages := by
  rw [State.consumeCallback]
  split
  · exact ⟨[.disconnect], rfl, rfl, rfl, fun _ => Or.inl⟩
  · split
    · exact ⟨[], by simp, rfl, rfl, fun _ => Or.inl⟩
    · split
      · exact ⟨[.connectionFailure, .consume config.getBatchSize],
          by simp [State.consume, State.called], rfl, rfl, fun _ => Or.inl⟩
      · split
        · exact ⟨[.consume config.getBatchSize], rfl, rfl, rfl, fun _ => Or.inl⟩
        · refine ⟨[], by simp [State.processBatch], rfl, rfl, fun batch member => ?_⟩
          rcases List.mem_append.mp member with member | member
          · exact Or.inl member
          · obtain rfl := List.mem_singleton.mp member
            exact Or.inr fun message own => List.mem_of_mem_take own

/-- No turn adds to what is outstanding. -/
theorem outstanding_step {event : Event} (stepped : step config before event = some after) :
    after.outstanding ≤ before.outstanding := by
  cases event with
  | callback error messages =>
      obtain ⟨requested, -, rfl⟩ := step_callback stepped
      refine (outstanding_consumeCallback error messages).trans ?_
      simp only [State.outstanding, State.called]
      omega
  | wake =>
      obtain ⟨asleep, rfl⟩ := step_wake stepped
      simp only [State.outstanding, State.consume, State.called]
      omega
  | start index message =>
      obtain ⟨batch, found, -, rfl⟩ := step_start stepped
      simp [State.outstanding]
  | settle index message fulfilled =>
      obtain ⟨batch, found, -, rfl⟩ := step_settle stepped
      simp [State.outstanding, State.called]
  | finish index accepted =>
      obtain ⟨batch, found, -, -, rfl⟩ := step_finish stepped
      obtain ⟨within, -⟩ := List.getElem?_eq_some_iff.mp found
      simp only [State.outstanding, State.consume, State.called, State.commitBatch, report_spec,
        foldl_commit_spec, List.length_eraseIdx_of_lt within]
      omega
  | revoke =>
      obtain rfl := Option.some.inj stepped
      rw [State.flushOffsets]
      split
      · exact le_rfl
      · exact le_rfl
  | pause | resume =>
      obtain rfl := Option.some.inj stepped
      exact le_rfl
  | stop =>
      obtain rfl := Option.some.inj stepped
      split
      · exact le_rfl
      · exact le_rfl

end Steps

/-! ## The messages that a batch commits -/

theorem mem_raise {highest : Dictionary String TopicPartitionOffset}
    {message : TopicPartitionOffset} {entry : String × TopicPartitionOffset}
    (member : entry ∈ (State.raise highest message).entries) :
    entry = (message.key, message) ∨ entry ∈ highest.entries := by
  rw [State.raise] at member
  split at member
  · exact (Dictionary.mem_entries_set.mp member).imp_right And.right
  · split at member
    · exact (Dictionary.mem_entries_set.mp member).imp_right And.right
    · exact Or.inr member

/-- A batch commits messages of its own, each under the key of its partition. -/
theorem mem_highestPerPartition {batch : List TopicPartitionOffset}
    {entry : String × TopicPartitionOffset}
    (member : entry ∈ (State.highestPerPartition batch).entries) :
    entry.2 ∈ batch ∧ entry.1 = entry.2.key := by
  have folded : ∀ (messages : List TopicPartitionOffset)
      (highest : Dictionary String TopicPartitionOffset),
      entry ∈ (messages.foldl State.raise highest).entries →
        entry ∈ highest.entries ∨ entry.2 ∈ messages ∧ entry.1 = entry.2.key := by
    intro messages
    induction messages with
    | nil => exact fun _ found => Or.inl found
    | cons message messages induction =>
        intro highest found
        rcases induction _ found with raised | ⟨later, keyed⟩
        · rcases mem_raise raised with rfl | known
          · exact Or.inr ⟨List.mem_cons_self, rfl⟩
          · exact Or.inl known
        · exact Or.inr ⟨List.mem_cons_of_mem _ later, keyed⟩
  rcases folded batch .empty member with none | found
  · contradiction
  · exact found

/-- The message at an offset of the only partition of a topic. -/
def order (offset : Nat) : TopicPartitionOffset := ⟨"orders", 0, offset⟩

end KafkaRunner

/-! ## The client -/

/-- Hand over messages in order, each at or after the position of its partition. -/
def advance : List TopicPartitionOffset → (TopicPartition → Nat) → Option (TopicPartition → Nat)
  | [], position => some position
  | message :: messages, position =>
      if position message.topicPartition ≤ message.offset then
        advance messages (Function.update position message.topicPartition (message.offset + 1))
      else
        none

theorem advance_spec {messages : List TopicPartitionOffset} {position after : TopicPartition → Nat}
    (advanced : advance messages position = some after) :
    (∀ partition, position partition ≤ after partition) ∧
      ∀ message ∈ messages, position message.topicPartition ≤ message.offset ∧
        message.offset < after message.topicPartition := by
  induction messages generalizing position with
  | nil =>
      obtain rfl := Option.some.inj advanced
      exact ⟨fun _ => le_rfl, by simp⟩
  | cons message messages induction =>
      rw [advance] at advanced
      split at advanced
      · rename_i fits
        obtain ⟨grows, later⟩ := induction advanced
        have moves : ∀ partition, position partition ≤
            Function.update position message.topicPartition (message.offset + 1) partition := by
          intro partition
          by_cases same : partition = message.topicPartition
          · subst same
            rw [Function.update_self]
            omega
          · rw [Function.update_of_ne same]
        refine ⟨fun partition => (moves partition).trans (grows partition), ?_⟩
        rw [List.forall_mem_cons]
        constructor
        · have here := grows message.topicPartition
          rw [Function.update_self] at here
          omega
        · intro other member
          obtain ⟨reached, passed⟩ := later other member
          exact ⟨(moves _).trans reached, passed⟩
      · contradiction

end Steveo
