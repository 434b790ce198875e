import Steveo.Kafka.Runner

/-!
# Commits and owned partitions

The partitions of a runner are assigned and revoked by its consumer group, and the other members
commit offsets of the partitions that the runner does not own.  A runner commits only what it owns
as long as no partition is revoked while one of its messages is in a batch or in an answer of the
client that has not been handed over.
-/

namespace Steveo

namespace KafkaRunner

/-! ## The committed offsets of a group -/

/-- A commit of the runner with what it met: whether the partition was owned, and the offset that
was committed before. -/
structure Issue where
  offset : TopicPartitionOffset
  owned : Bool
  previous : Nat

/-- The commit is for an owned partition and does not lower its committed offset. -/
def Issue.Rightful (issue : Issue) : Prop :=
  issue.owned = true ∧ issue.previous ≤ issue.offset.offset

/-- What the group knows: the partitions of the runner, the committed offsets, and the commits that
the runner has issued. -/
structure Ledger where
  assigned : TopicPartition → Bool
  committed : TopicPartition → Nat
  issued : List Issue

namespace Ledger

/-- A commit of the runner. -/
def issue (ledger : Ledger) (offset : TopicPartitionOffset) : Ledger where
  assigned := ledger.assigned
  committed := Function.update ledger.committed offset.topicPartition offset.offset
  issued := ledger.issued ++
    [⟨offset, ledger.assigned offset.topicPartition, ledger.committed offset.topicPartition⟩]

/-- Every commit so far was rightful. -/
def Rightful (ledger : Ledger) : Prop := ∀ issue ∈ ledger.issued, issue.Rightful

variable {ledger : Ledger}

theorem Rightful.issue (rightful : ledger.Rightful) {offset : TopicPartitionOffset}
    (owned : ledger.assigned offset.topicPartition = true)
    (reached : ledger.committed offset.topicPartition ≤ offset.offset) :
    (ledger.issue offset).Rightful := by
  intro issue member
  rcases List.mem_append.mp member with member | member
  · exact rightful issue member
  · obtain rfl := List.mem_singleton.mp member
    exact ⟨owned, reached⟩

/-- Each remembered offset is the committed one of an owned partition, under its own key. -/
def Remembers (ledger : Ledger) (processed : List (String × TopicPartitionOffset)) : Prop :=
  ∀ entry ∈ processed, entry.1 = entry.2.key ∧
    ledger.assigned entry.2.topicPartition = true ∧
      ledger.committed entry.2.topicPartition = entry.2.offset

/-- Committing the remembered offsets again changes nothing but the list of commits. -/
theorem flush (rightful : ledger.Rightful) {processed : List (String × TopicPartitionOffset)}
    (remembers : ledger.Remembers processed) :
    ((processed.map Prod.snd).foldl issue ledger).Rightful ∧
      ((processed.map Prod.snd).foldl issue ledger).assigned = ledger.assigned ∧
      ((processed.map Prod.snd).foldl issue ledger).committed = ledger.committed := by
  induction processed generalizing ledger with
  | nil => exact ⟨rightful, rfl, rfl⟩
  | cons entry processed induction =>
      obtain ⟨-, owned, same⟩ := remembers entry List.mem_cons_self
      have unchanged : (ledger.issue entry.2).committed = ledger.committed := by
        rw [issue, ← same]
        exact Function.update_eq_self _ _
      have later : (ledger.issue entry.2).Remembers processed := by
        intro other member
        obtain ⟨keyed, held, met⟩ := remembers other (List.mem_cons_of_mem _ member)
        exact ⟨keyed, held, (congrFun unchanged _).trans met⟩
      obtain ⟨stays, assigned, committed⟩ := induction (rightful.issue owned same.le) later
      exact ⟨stays, assigned, committed.trans unchanged⟩

/-- The messages that a batch commits: of owned partitions, past what is committed, each under the
key of its partition and at most one for every key. -/
structure Commits (ledger : Ledger) (entries : List (String × TopicPartitionOffset)) : Prop where
  distinct : (entries.map Prod.fst).Nodup
  keyed : ∀ entry ∈ entries, entry.1 = entry.2.key
  owned : ∀ entry ∈ entries, ledger.assigned entry.2.topicPartition = true
  reached : ∀ entry ∈ entries, ledger.committed entry.2.topicPartition ≤ entry.2.offset

/-- A commit leaves the committed offsets of the other partitions as they were. -/
theorem committed_issue_of_key_ne (ledger : Ledger) {message other : TopicPartitionOffset}
    (different : other.key ≠ message.key) :
    (ledger.issue message.next).committed other.topicPartition =
      ledger.committed other.topicPartition := by
  have apart : other.topicPartition ≠ message.topicPartition :=
    fun same => different (TopicPartitionOffset.key_eq_of_topicPartition same)
  exact Function.update_of_ne apart _ _

/-- After the first commit of a batch the others still are commits of a batch. -/
theorem Commits.tail {entry : String × TopicPartitionOffset}
    {entries : List (String × TopicPartitionOffset)} (commits : ledger.Commits (entry :: entries)) :
    (ledger.issue entry.2.next).Commits entries := by
  obtain ⟨fresh, distinct⟩ := List.nodup_cons.mp commits.distinct
  constructor
  · exact distinct
  · exact fun other member => commits.keyed other (List.mem_cons_of_mem _ member)
  · exact fun other member => commits.owned other (List.mem_cons_of_mem _ member)
  · intro other member
    rw [ledger.committed_issue_of_key_ne]
    · exact commits.reached other (List.mem_cons_of_mem _ member)
    · intro same
      apply fresh
      rw [commits.keyed entry List.mem_cons_self, ← same,
        ← commits.keyed other (List.mem_cons_of_mem _ member)]
      exact List.mem_map_of_mem member

/-- The position after a committed message is remembered truly. -/
theorem Remembers.issue {processed : Dictionary String TopicPartitionOffset}
    (remembers : ledger.Remembers processed.entries) {entry : String × TopicPartitionOffset}
    (keyed : entry.1 = entry.2.key) (owned : ledger.assigned entry.2.topicPartition = true) :
    (ledger.issue entry.2.next).Remembers (processed.set entry.1 entry.2.next).entries := by
  intro other member
  rcases Dictionary.mem_entries_set.mp member with rfl | ⟨different, member⟩
  · exact ⟨keyed, owned, Function.update_self _ _ _⟩
  · obtain ⟨otherKeyed, held, met⟩ := remembers other member
    rw [otherKeyed, keyed] at different
    exact ⟨otherKeyed, held, (ledger.committed_issue_of_key_ne different).trans met⟩

/-- Committing the messages of a batch keeps the ledger rightful and the remembered offsets true,
and moves the committed offset of a partition only to the position after one of the messages. -/
theorem commit (rightful : ledger.Rightful) {processed : Dictionary String TopicPartitionOffset}
    (remembers : ledger.Remembers processed.entries)
    {entries : List (String × TopicPartitionOffset)} (commits : ledger.Commits entries) :
    let after := (entries.map fun entry => entry.2.next).foldl issue ledger
    after.Rightful ∧ after.assigned = ledger.assigned ∧
      after.Remembers
        (entries.foldl (fun offsets entry => offsets.set entry.1 entry.2.next) processed).entries ∧
      ∀ partition, after.committed partition = ledger.committed partition ∨
        ∃ entry ∈ entries, entry.2.topicPartition = partition ∧
          after.committed partition = entry.2.offset + 1 := by
  induction entries generalizing ledger processed with
  | nil => exact ⟨rightful, rfl, remembers, fun _ => Or.inl rfl⟩
  | cons entry entries induction =>
      have owned := commits.owned entry List.mem_cons_self
      have reached := commits.reached entry List.mem_cons_self
      have remembered := remembers.issue (commits.keyed entry List.mem_cons_self) owned
      have issued : (ledger.issue entry.2.next).Rightful :=
        rightful.issue owned (reached.trans (Nat.le_succ _))
      obtain ⟨stays, assigned, remains, moved⟩ := induction issued remembered commits.tail
      refine ⟨stays, assigned, remains, fun partition => ?_⟩
      rcases moved partition with same | ⟨other, member, here, there⟩
      · by_cases own : partition = entry.2.topicPartition
        · subst own
          exact Or.inr ⟨entry, List.mem_cons_self, rfl,
            same.trans (Function.update_self _ _ _)⟩
        · exact Or.inl (same.trans (Function.update_of_ne own _ _))
      · exact Or.inr ⟨other, List.mem_cons_of_mem _ member, here, there⟩

end Ledger

/-! ## The runner in its group -/

/-- A runner with the positions of its client and the ledger of its group. -/
structure Group where
  runner : State
  position : TopicPartition → Nat
  ledger : Ledger

/-- What can happen in the group of a runner: a turn of the runner, a change of its partitions, or
a commit of another member. -/
inductive GroupEvent
  | turn (event : Event)
  | assign (partition : TopicPartition) (start : Nat)
  | revoke (partitions : List TopicPartition)
  | other (partition : TopicPartition) (offset : Nat)

namespace Group

/-- The group after the runner has moved to a state: its new commits have been issued. -/
def moved (group : Group) (runner : State) (position : TopicPartition → Nat) : Group where
  runner := runner
  position := position
  ledger :=
    ((runner.calls.drop group.runner.calls.length).flatMap Call.commits).foldl Ledger.issue
      group.ledger

/-- One event in the group.  The client starts a partition at or after its committed offset; other
members commit forward, and only offsets of partitions that the runner does not own.  Messages that
do not go on from the client's positions are left over from an earlier assignment. -/
def step (config : KafkaConfiguration) (group : Group) : GroupEvent → Option Group
  | .turn (.callback error messages) =>
      (KafkaRunner.step config group.runner (.callback error messages)).map fun runner =>
        group.moved runner ((advance messages group.position).getD group.position)
  | .turn .revoke => none
  | .turn event =>
      (KafkaRunner.step config group.runner event).map fun runner =>
        group.moved runner group.position
  | .assign partition start =>
      if group.ledger.assigned partition = false ∧ group.ledger.committed partition ≤ start then
        some
          { group with
            position := Function.update group.position partition start
            ledger := { group.ledger with
              assigned := Function.update group.ledger.assigned partition true } }
      else
        none
  | .revoke partitions =>
      (KafkaRunner.step config group.runner .revoke).map fun runner =>
        let flushed := group.moved runner group.position
        { flushed with
          ledger := { flushed.ledger with
            assigned := fun partition =>
              flushed.ledger.assigned partition && !partitions.contains partition } }
  | .other partition offset =>
      if group.ledger.assigned partition = false ∧ group.ledger.committed partition ≤ offset then
        some
          { group with
            ledger := { group.ledger with
              committed := Function.update group.ledger.committed partition offset } }
      else
        none

/-- A runner in its group. -/
def system (config : KafkaConfiguration) : System Group GroupEvent := ⟨step config⟩

/-- No partition is revoked while one of its messages is in a batch, and the messages that are
handed over go on with partitions that are assigned. -/
def Between (group : Group) : GroupEvent → Prop
  | .turn (.callback _ messages) =>
      (∀ message ∈ messages, group.ledger.assigned message.topicPartition = true) ∧
        (advance messages group.position).isSome = true
  | .revoke partitions =>
      ∀ batch ∈ group.runner.batches, ∀ message ∈ batch.messages,
        message.topicPartition ∉ partitions
  | _ => True

/-- The runner holds only what it owns: in its batches, and among the offsets it remembers. -/
structure Holds (group : Group) : Prop where
  rightful : group.ledger.Rightful
  chain : group.runner.outstanding ≤ 1
  reached : ∀ partition, group.ledger.assigned partition = true →
    group.ledger.committed partition ≤ group.position partition
  remembers : group.ledger.Remembers group.runner.processedOffsets.entries
  batched : ∀ batch ∈ group.runner.batches, ∀ message ∈ batch.messages,
    group.ledger.assigned message.topicPartition = true ∧
      group.ledger.committed message.topicPartition ≤ message.offset ∧
        message.offset < group.position message.topicPartition

/-- The ledger after a turn that appends known calls. -/
theorem moved_ledger (group : Group) {runner : State} {added : List Call}
    (appended : runner.calls = group.runner.calls ++ added) (position : TopicPartition → Nat) :
    (group.moved runner position).ledger =
      (added.flatMap Call.commits).foldl Ledger.issue group.ledger := by
  rw [moved, appended, List.drop_left]

section Steps

variable {config : KafkaConfiguration} {group : Group} (holds : group.Holds)

include holds

/-- A turn without commits keeps what the runner holds. -/
theorem Holds.silent {runner : State} {added : List Call} {position : TopicPartition → Nat}
    (appended : runner.calls = group.runner.calls ++ added)
    (silent : added.flatMap Call.commits = []) (chain : runner.outstanding ≤ 1)
    (processed : runner.processedOffsets = group.runner.processedOffsets)
    (grows : ∀ partition, group.position partition ≤ position partition)
    (batched : ∀ batch ∈ runner.batches, ∀ message ∈ batch.messages,
      group.ledger.assigned message.topicPartition = true ∧
        group.ledger.committed message.topicPartition ≤ message.offset ∧
          message.offset < position message.topicPartition) :
    (group.moved runner position).Holds := by
  have same : (group.moved runner position).ledger = group.ledger := by
    rw [moved_ledger group appended, silent]
    rfl
  constructor
  · rw [same]
    exact holds.rightful
  · exact chain
  · intro partition owned
    rw [same] at owned ⊢
    exact (holds.reached partition owned).trans (grows partition)
  · rw [same]
    exact processed ▸ holds.remembers
  · rw [same]
    exact batched

theorem Holds.callback {error : Bool} {messages : List TopicPartitionOffset} {runner : State}
    {position : TopicPartition → Nat}
    (owned : ∀ message ∈ messages, group.ledger.assigned message.topicPartition = true)
    (advanced : advance messages group.position = some position)
    (stepped : KafkaRunner.step config group.runner (.callback error messages) = some runner) :
    (group.moved runner position).Holds := by
  obtain ⟨grows, fresh⟩ := advance_spec advanced
  have chain := (outstanding_step stepped).trans holds.chain
  obtain ⟨-, -, rfl⟩ := step_callback stepped
  obtain ⟨added, appended, silent, processed, batches⟩ := consumeCallback_spec config error messages
    ({ group.runner with requests := group.runner.requests - 1 }.called (.handed messages))
  have calls : ({ group.runner with requests := group.runner.requests - 1 }.called
      (.handed messages)).calls ++ added = group.runner.calls ++ (.handed messages :: added) := by
    simp [State.called]
  apply holds.silent (appended.trans calls) silent chain processed grows
  intro batch member message own
  rcases batches batch member with known | handedOver
  · obtain ⟨held, reached, below⟩ := holds.batched batch known message own
    exact ⟨held, reached, below.trans_le (grows _)⟩
  · have held := owned message (handedOver message own)
    obtain ⟨reached, below⟩ := fresh message (handedOver message own)
    exact ⟨held, (holds.reached _ held).trans reached, below⟩

theorem Holds.wake {runner : State}
    (stepped : KafkaRunner.step config group.runner .wake = some runner) :
    (group.moved runner group.position).Holds := by
  have chain := (outstanding_step stepped).trans holds.chain
  obtain ⟨-, rfl⟩ := step_wake stepped
  have appended :
      ({ group.runner with sleeping := group.runner.sleeping - 1 }.consume config).calls =
        group.runner.calls ++ [.consume config.getBatchSize] := rfl
  exact holds.silent appended rfl chain rfl (fun _ => le_rfl) holds.batched

/-- A batch of the runner whose messages stay as they are. -/
theorem Holds.batch_changed {index : Nat} {batch changed : Batch}
    (found : group.runner.batches[index]? = some batch) (same : changed.messages = batch.messages) :
    ∀ other ∈ group.runner.batches.set index changed, ∀ message ∈ other.messages,
      group.ledger.assigned message.topicPartition = true ∧
        group.ledger.committed message.topicPartition ≤ message.offset ∧
          message.offset < group.position message.topicPartition := by
  intro other member message own
  rcases List.mem_or_eq_of_mem_set member with known | rfl
  · exact holds.batched other known message own
  · rw [same] at own
    exact holds.batched batch (List.mem_of_getElem? found) message own

theorem Holds.start {index : Nat} {message : TopicPartitionOffset} {runner : State}
    (stepped : KafkaRunner.step config group.runner (.start index message) = some runner) :
    (group.moved runner group.position).Holds := by
  have chain := (outstanding_step stepped).trans holds.chain
  obtain ⟨batch, found, -, rfl⟩ := step_start stepped
  exact holds.silent (List.append_nil _).symm rfl chain rfl (fun _ => le_rfl)
    (holds.batch_changed found rfl)

theorem Holds.settle {index : Nat} {message : TopicPartitionOffset} {fulfilled : Bool}
    {runner : State}
    (stepped : KafkaRunner.step config group.runner (.settle index message fulfilled) =
      some runner) :
    (group.moved runner group.position).Holds := by
  have chain := (outstanding_step stepped).trans holds.chain
  obtain ⟨batch, found, -, rfl⟩ := step_settle stepped
  have appended : group.runner.calls ++ [.settled message fulfilled] =
      group.runner.calls ++ [.settled message fulfilled] := rfl
  exact holds.silent appended rfl chain rfl (fun _ => le_rfl) (holds.batch_changed found rfl)

theorem Holds.finish {index accepted : Nat} {runner : State}
    (stepped : KafkaRunner.step config group.runner (.finish index accepted) = some runner) :
    (group.moved runner group.position).Holds := by
  have chain := (outstanding_step stepped).trans holds.chain
  obtain ⟨batch, found, -, -, rfl⟩ := step_finish stepped
  obtain ⟨rfl, batches, -, -⟩ := processing_only holds.chain found
  have member : batch ∈ group.runner.batches := by simp [batches]
  let entries := (State.highestPerPartition batch.messages).entries.take accepted
  have own : ∀ entry ∈ entries, entry.2 ∈ batch.messages ∧ entry.1 = entry.2.key :=
    fun entry taken => mem_highestPerPartition (List.mem_of_mem_take taken)
  have commits : group.ledger.Commits entries := by
    constructor
    · exact ((List.take_sublist _ _).map Prod.fst).nodup
        (State.highestPerPartition batch.messages).distinct
    · exact fun entry taken => (own entry taken).2
    · exact fun entry taken => (holds.batched batch member entry.2 (own entry taken).1).1
    · exact fun entry taken => (holds.batched batch member entry.2 (own entry taken).1).2.1
  obtain ⟨rightful, assigned, remembers, moved⟩ :=
    Ledger.commit holds.rightful holds.remembers commits
  obtain ⟨remaining, processed, added, appended, committed⟩ := finish_spec config batch accepted
    { group.runner with batches := group.runner.batches.eraseIdx 0 }
  have ledger := moved_ledger group appended group.position
  rw [committed] at ledger
  rw [← ledger] at rightful assigned remembers moved
  constructor
  · exact rightful
  · exact chain
  · intro partition owned
    rw [assigned] at owned
    rcases moved partition with same | ⟨entry, taken, rfl, next⟩
    · exact same.le.trans (holds.reached partition owned)
    · exact next.le.trans (holds.batched batch member entry.2 (own entry taken).1).2.2
  · exact processed ▸ remembers
  · intro other known
    have none : group.runner.batches.eraseIdx 0 = [] := by simp [batches]
    exact absurd (none ▸ remaining ▸ known) List.not_mem_nil

theorem Holds.revoke {partitions : List TopicPartition} {after : Group}
    (between : group.Between (.revoke partitions))
    (stepped : (system config).step group (.revoke partitions) = some after) : after.Holds := by
  have flushed :
      KafkaRunner.step config group.runner .revoke = some group.runner.flushOffsets := rfl
  have chain := (outstanding_step flushed).trans holds.chain
  obtain rfl := Option.some.inj stepped
  obtain ⟨batches, forgotten, added, appended, committed⟩ := flushOffsets_spec group.runner
  obtain ⟨rightful, assigned, unchanged⟩ := Ledger.flush holds.rightful holds.remembers
  have ledger := moved_ledger group appended group.position
  rw [committed] at ledger
  rw [← ledger] at rightful assigned unchanged
  constructor
  · exact rightful
  · exact chain
  · intro partition owned
    simp only [assigned, Bool.and_eq_true] at owned
    exact (congrFun unchanged partition).le.trans (holds.reached partition owned.1)
  · intro entry member
    exact absurd (forgotten ▸ member) List.not_mem_nil
  · intro batch member message own
    have known : batch ∈ group.runner.batches := batches ▸ member
    obtain ⟨owned, behind, below⟩ := holds.batched batch known message own
    have kept := between batch known message own
    refine ⟨?_, (congrFun unchanged _).le.trans behind, below⟩
    simp [assigned, owned, kept]

theorem Holds.assign {partition : TopicPartition} {start : Nat} {after : Group}
    (stepped : (system config).step group (.assign partition start) = some after) :
    after.Holds := by
  simp only [system, Group.step, Option.ite_none_right_eq_some, Option.some.injEq] at stepped
  obtain ⟨⟨free, reached⟩, rfl⟩ := stepped
  have apart : ∀ other, group.ledger.assigned other = true → other ≠ partition := by
    rintro other owned rfl
    rw [free] at owned
    contradiction
  constructor
  · exact holds.rightful
  · exact holds.chain
  · intro other owned
    by_cases same : other = partition
    · subst same
      simpa using reached
    · simp only [Function.update_of_ne same] at owned ⊢
      exact holds.reached other owned
  · intro entry member
    obtain ⟨keyed, owned, met⟩ := holds.remembers entry member
    exact ⟨keyed, (Function.update_of_ne (apart _ owned) _ _).trans owned, met⟩
  · intro batch member message own
    obtain ⟨owned, behind, below⟩ := holds.batched batch member message own
    have elsewhere := apart _ owned
    exact ⟨(Function.update_of_ne elsewhere _ _).trans owned, behind,
      below.trans_eq (Function.update_of_ne elsewhere _ _).symm⟩

theorem Holds.other {partition : TopicPartition} {offset : Nat} {after : Group}
    (stepped : (system config).step group (.other partition offset) = some after) :
    after.Holds := by
  simp only [system, Group.step, Option.ite_none_right_eq_some, Option.some.injEq] at stepped
  obtain ⟨⟨free, forward⟩, rfl⟩ := stepped
  have unchanged : ∀ owned, group.ledger.assigned owned = true →
      Function.update group.ledger.committed partition offset owned =
        group.ledger.committed owned := by
    intro owned held
    apply Function.update_of_ne
    rintro rfl
    rw [free] at held
    contradiction
  constructor
  · exact holds.rightful
  · exact holds.chain
  · intro owned held
    exact (unchanged owned held).le.trans (holds.reached owned held)
  · intro entry member
    obtain ⟨keyed, owned, met⟩ := holds.remembers entry member
    exact ⟨keyed, owned, (unchanged _ owned).trans met⟩
  · intro batch member message own
    obtain ⟨owned, behind, below⟩ := holds.batched batch member message own
    exact ⟨owned, (unchanged _ owned).le.trans behind, below⟩

theorem Holds.step {event : GroupEvent} {after : Group} (between : group.Between event)
    (stepped : (system config).step group event = some after) : after.Holds := by
  cases event with
  | assign partition start => exact holds.assign stepped
  | revoke partitions => exact holds.revoke between stepped
  | other partition offset => exact holds.other stepped
  | turn event =>
      cases event with
      | callback error messages =>
          obtain ⟨owned, goesOn⟩ := between
          obtain ⟨position, advanced⟩ := Option.isSome_iff_exists.mp goesOn
          obtain ⟨runner, taken, rfl⟩ := Option.map_eq_some_iff.mp stepped
          rw [advanced]
          exact holds.callback owned advanced taken
      | wake =>
          obtain ⟨runner, ran, rfl⟩ := Option.map_eq_some_iff.mp stepped
          exact holds.wake ran
      | start index message =>
          obtain ⟨runner, ran, rfl⟩ := Option.map_eq_some_iff.mp stepped
          exact holds.start ran
      | settle index message fulfilled =>
          obtain ⟨runner, ran, rfl⟩ := Option.map_eq_some_iff.mp stepped
          exact holds.settle ran
      | finish index accepted =>
          obtain ⟨runner, ran, rfl⟩ := Option.map_eq_some_iff.mp stepped
          exact holds.finish ran
      | revoke => contradiction
      | pause | resume =>
          obtain rfl := Option.some.inj stepped
          exact holds.silent (List.append_nil _).symm rfl holds.chain rfl (fun _ => le_rfl)
            holds.batched
      | stop =>
          obtain rfl := Option.some.inj stepped
          split
          · exact holds.silent (List.append_nil _).symm rfl holds.chain rfl (fun _ => le_rfl)
              holds.batched
          · exact holds.silent (List.append_nil _).symm rfl holds.chain rfl (fun _ => le_rfl)
              holds.batched

end Steps

/-! ### Whole runs -/

/-- A runner that has just asked for messages, in a group that has assigned it nothing. -/
def joining (config : KafkaConfiguration) (position committed : TopicPartition → Nat) : Group where
  runner := .started config
  position := position
  ledger := { assigned := fun _ => false, committed, issued := [] }

theorem holds_joining (config : KafkaConfiguration) (position committed : TopicPartition → Nat) :
    (joining config position committed).Holds := by
  constructor
  · simp [joining, Ledger.Rightful]
  · exact le_rfl
  · simp [joining]
  · intro entry member
    exact absurd member List.not_mem_nil
  · simp [joining, State.started, State.consume, State.called]

/-- The runner commits only offsets of partitions that it owns, and lowers none, in a run in which
no partition is revoked while one of its messages is in a batch and only messages of assigned
partitions are handed over. -/
theorem group_rightful (config : KafkaConfiguration) (position committed : TopicPartition → Nat)
    (events : List GroupEvent) (final : Group)
    (between : (system config).Along Between events (joining config position committed))
    (execution : (system config).run events (joining config position committed) = some final) :
    final.ledger.Rightful := by
  have holds : final.Holds :=
    System.invariant_run (fun _ _ _ known between stepped => known.step between stepped)
      (holds_joining config position committed) between execution
  exact holds.rightful

/-- A batch that is committed before its partition is revoked. -/
theorem committed_then_revoked :
    ∃ final, (system {}).run
        [.assign ("orders", 0) 0, .turn (.callback false [order 0]), .turn (.start 0 (order 0)),
          .turn (.settle 0 (order 0) true), .turn (.finish 0 1), .revoke [("orders", 0)]]
        (joining {} (fun _ => 0) fun _ => 0) = some final ∧
      final.ledger.issued = [⟨order 1, true, 0⟩, ⟨order 1, true, 1⟩] ∧ final.ledger.Rightful := by
  refine ⟨_, rfl, rfl, group_rightful {} (fun _ => 0) (fun _ => 0)
    [.assign ("orders", 0) 0, .turn (.callback false [order 0]), .turn (.start 0 (order 0)),
      .turn (.settle 0 (order 0) true), .turn (.finish 0 1), .revoke [("orders", 0)]] _ ?_ rfl⟩
  refine ⟨trivial, fun joined stepped => ?_⟩
  obtain rfl := Option.some.inj stepped
  refine ⟨⟨by decide, rfl⟩, fun called stepped => ?_⟩
  obtain rfl := Option.some.inj stepped
  refine ⟨trivial, fun started stepped => ?_⟩
  obtain rfl := Option.some.inj stepped
  refine ⟨trivial, fun settled stepped => ?_⟩
  obtain rfl := Option.some.inj stepped
  refine ⟨trivial, fun finished stepped => ?_⟩
  obtain rfl := Option.some.inj stepped
  exact ⟨fun batch member => absurd member List.not_mem_nil, fun _ _ => trivial⟩

/-- A partition that is revoked while its message is in a batch: the commit is for a partition of
another member and lowers what that member has committed. -/
theorem revoked_then_committed :
    ∃ final, (system {}).run
        [.assign ("orders", 0) 0, .turn (.callback false [order 0]), .turn (.start 0 (order 0)),
          .revoke [("orders", 0)], .other ("orders", 0) 5, .turn (.settle 0 (order 0) true),
          .turn (.finish 0 1)] (joining {} (fun _ => 0) fun _ => 0) = some final ∧
      final.ledger.issued = [⟨order 1, false, 5⟩] ∧ final.ledger.committed ("orders", 0) = 1 ∧
        ¬ final.ledger.Rightful := by
  refine ⟨_, rfl, rfl, rfl, fun rightful => ?_⟩
  have owned : false = true := (rightful ⟨order 1, false, 5⟩ List.mem_cons_self).1
  contradiction

end Group

end KafkaRunner

end Steveo
