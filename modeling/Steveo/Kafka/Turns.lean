import Mathlib.Data.List.Forall2
import Steveo.Kafka.Reporting

/-!
# The order in which a Kafka runner handles messages

A runner takes one batch after the other.  The messages of a batch may settle in any order, but all
of them settle before those of the next batch begin.  Without batching, messages are handled one by
one in the order in which the client hands them over.
-/

namespace Steveo

namespace KafkaRunner

/-- The batch that a turn begins to process. -/
def takenBatch (before : State) (event : Event) : List (List TopicPartitionOffset) :=
  match taken before event with
  | [] => []
  | message :: messages => [message :: messages]

/-- The batches have settled one after the other, except for the one that is being processed. -/
structure InTurn (config : KafkaConfiguration) (batches : List (List TopicPartitionOffset))
    (state : State) : Prop where
  single : state.outstanding ≤ 1
  within : ∀ batch ∈ batches, batch.length ≤ config.getBatchSize
  inTurn : ∃ finished blocks part,
    batches = finished ++ state.batches.map Batch.messages ∧
      List.Forall₂ List.Perm blocks finished ∧
      settled state.calls = blocks.flatten ++ part ∧
      (part ++ state.batches.flatMap Batch.unsettled).Perm
        (state.batches.flatMap Batch.messages)

section Steps

variable {config : KafkaConfiguration} {before after : State}
  {known : List (List TopicPartitionOffset)}

theorem taken_within {event : Event} (stepped : step config before event = some after) :
    (taken before event).length ≤ config.getBatchSize := by
  cases event with
  | callback error messages =>
      obtain ⟨-, within, -⟩ := step_callback stepped
      cases error with
      | true => exact Nat.zero_le _
      | false =>
          rw [taken]
          split
          · exact within
          · exact Nat.zero_le _
  | wake | start | settle | finish | revoke | pause | resume | stop => exact Nat.zero_le _

/-- A turn begins a batch of its own messages or none. -/
theorem takenBatch_of_some {event : Event} {messages : List TopicPartitionOffset}
    (some : messages ≠ []) (same : taken before event = messages) :
    takenBatch before event = [messages] := by
  rw [takenBatch, same]
  cases messages with
  | nil => exact absurd rfl some
  | cons message messages => rfl

theorem takenBatch_of_none {event : Event} (none : taken before event = []) :
    takenBatch before event = [] := by
  rw [takenBatch, none]

theorem InTurn.step (turns : InTurn config known before) {event : Event}
    (stepped : KafkaRunner.step config before event = some after) :
    InTurn config (known ++ takenBatch before event) after := by
  have single := (outstanding_step stepped).trans turns.single
  have fits := taken_within stepped
  obtain ⟨chain, within, finished, blocks, part, same, blockwise, order, rest⟩ := turns
  cases step_effect stepped with
  | quiet none batches added calls silent =>
      rw [takenBatch_of_none none, List.append_nil]
      refine ⟨single, within, finished, blocks, part, ?_, blockwise, ?_, ?_⟩
      · rw [batches, same]
      · rw [calls, settled_append, settled_silent silent, List.append_nil, order]
      · rwa [batches]
  | took messages some fresh batches calls =>
      rw [takenBatch_of_some some fresh]
      rw [fresh] at fits
      have idle : before.batches = [] := by
        rw [State.outstanding, batches, List.length_append, List.length_singleton] at single
        exact List.eq_nil_of_length_eq_zero (by omega)
      rw [idle, List.nil_append] at batches
      rw [idle] at same rest
      obtain rfl : part = [] := List.append_eq_nil_iff.mp (List.perm_nil.mp rest) |>.1
      refine ⟨single, ?_, finished, blocks, [], ?_, blockwise, ?_, ?_⟩
      · exact fun batch member => (List.mem_append.mp member).elim (within batch)
          fun last => List.mem_singleton.mp last ▸ fits
      · simp [same, batches]
      · rw [calls, settled_append, order]
        simp [settled, Call.settlements]
      · simp [batches, Batch.unsettled]
  | started none index batch message found waiting batches calls =>
      obtain ⟨rfl, only, -, -⟩ := processing_only chain found
      rw [takenBatch_of_none none, List.append_nil]
      rw [only] at batches same rest
      refine ⟨single, within, finished, blocks, part, ?_, blockwise, by rw [calls, order], ?_⟩
      · rw [same, batches]
        rfl
      · simp only [batches, List.set_cons_zero, List.flatMap_cons, List.flatMap_nil,
          List.append_nil] at rest ⊢
        exact ((Batch.unsettled_start waiting).append_left part).trans rest
  | settled none index batch message fulfilled found running batches calls =>
      obtain ⟨rfl, only, -, -⟩ := processing_only chain found
      rw [takenBatch_of_none none, List.append_nil]
      rw [only] at batches same rest
      refine ⟨single, within, finished, blocks, part ++ [message], ?_, blockwise, ?_, ?_⟩
      · rw [same, batches]
        rfl
      · rw [calls, settled_append, settled_singleton, order, List.append_assoc]
        rfl
      · simp only [batches, List.set_cons_zero, List.flatMap_cons, List.flatMap_nil,
          List.append_nil] at rest ⊢
        rw [List.append_assoc]
        exact ((Batch.unsettled_settle running fulfilled).symm.append_left part).trans rest
  | finished none index batch found idle batches added calls silent =>
      obtain ⟨rfl, only, -, -⟩ := processing_only chain found
      obtain ⟨-, -, -, -, -, quiet⟩ := total_reports batch
      rw [takenBatch_of_none none, List.append_nil]
      rw [only] at batches same rest
      have whole : part.Perm batch.messages := by
        simpa [idle] using rest
      refine ⟨single, within, finished ++ [batch.messages], blocks ++ [part], [], ?_, ?_, ?_, ?_⟩
      · simp [same, batches]
      · exact List.rel_append blockwise (.cons whole .nil)
      · rw [calls, settled_append, settled_append, quiet, settled_silent silent, order]
        simp
      · simp [batches]

theorem inTurn_started : InTurn config [] (State.started config) where
  single := Nat.le_refl 1
  within _ member := absurd member List.not_mem_nil
  inTurn := ⟨[], [], [], rfl, .nil, rfl, .nil⟩

theorem inTurn_run {events : List Event}
    (execution : (consuming config).run events (State.started config) = some after) :
    InTurn config ((consuming config).gathered takenBatch events (State.started config)) after := by
  have preserved : ∀ earlier before event after, InTurn config earlier before → True →
      (consuming config).step before event = some after →
        InTurn config (earlier ++ takenBatch before event) after :=
    fun _ _ _ _ turns _ stepped => turns.step stepped
  exact System.invariant_gathered (InTurn config) preserved inTurn_started (fun _ _ => trivial)
    execution

end Steps

theorem eq_of_perm {left right : List TopicPartitionOffset} (same : left.Perm right)
    (short : right.length ≤ 1) : left = right := by
  rcases right with _ | ⟨message, _ | ⟨other, rest⟩⟩
  · exact List.perm_nil.mp same
  · exact List.perm_singleton.mp same
  · simp at short

/-- Blocks of one message at most are what they are permutations of. -/
theorem blocks_eq {blocks batches : List (List TopicPartitionOffset)}
    (blockwise : List.Forall₂ List.Perm blocks batches)
    (short : ∀ batch ∈ batches, batch.length ≤ 1) : blocks = batches := by
  induction blockwise with
  | nil => rfl
  | cons same _ induction =>
      obtain ⟨here, later⟩ := List.forall_mem_cons.mp short
      rw [induction later, eq_of_perm same here]

/-- The messages that a runner settles come batch by batch, in the order in which it has taken the
batches.  Those of one batch may come in any order, so where a batch has one message, messages come
in the order in which they have been taken. -/
theorem settled_in_turn (config : KafkaConfiguration) {events : List Event} {final : State}
    (execution : (consuming config).run events (State.started config) = some final) :
    (∃ finished blocks part,
      (consuming config).gathered takenBatch events (State.started config) =
          finished ++ final.batches.map Batch.messages ∧
        List.Forall₂ List.Perm blocks finished ∧
        settled final.calls = blocks.flatten ++ part ∧
        (part ++ final.batches.flatMap Batch.unsettled).Perm
          (final.batches.flatMap Batch.messages)) ∧
      (config.getBatchSize = 1 → settled final.calls <+:
        ((consuming config).gathered takenBatch events (State.started config)).flatten) := by
  obtain ⟨single, within, inTurn⟩ := inTurn_run execution
  refine ⟨inTurn, fun one => ?_⟩
  obtain ⟨finished, blocks, part, same, blockwise, order, rest⟩ := inTurn
  rw [same] at within ⊢
  rw [one] at within
  have short : (final.batches.flatMap Batch.messages).length ≤ 1 := by
    rw [State.outstanding] at single
    rcases batches : final.batches with _ | ⟨batch, _ | ⟨other, more⟩⟩
    · exact Nat.zero_le 1
    · simpa using within batch.messages (by simp [batches])
    · simp only [batches, List.length_cons] at single
      omega
  have part_eq := eq_of_perm rest short
  have blocks_eq := blocks_eq blockwise fun batch member =>
    within batch (List.mem_append_left _ member)
  rw [order, blocks_eq, List.flatten_append, ← List.flatMap_def, ← part_eq]
  exact (List.prefix_append_right_inj _).mpr (List.prefix_append _ _)

/-- The first message has been handled and the second one is being handled. -/
def oneByOne : List Event :=
  [.callback false [order 0], .start 0 (order 0), .settle 0 (order 0) false, .finish 0 1,
    .callback false [order 1], .start 0 (order 1)]

/-- Without batching the messages are settled in their order. -/
theorem oneByOne_in_turn :
    ∃ final, (consuming {}).run oneByOne (State.started {}) = some final ∧
      settled final.calls <+: [order 0, order 1] := by
  have execution : (consuming {}).run oneByOne (State.started {}) = some _ := rfl
  exact ⟨_, execution, (settled_in_turn {} execution).2 rfl⟩

end KafkaRunner

end Steveo
