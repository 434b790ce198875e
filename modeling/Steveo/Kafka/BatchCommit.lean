import Mathlib.Data.List.Induction
import Steveo.Kafka.Runner

/-!
# What committing a batch commits

A batch may span topics and partitions.  Committing it issues one commit for each of its
partitions, at the highest of the partition's messages, and remembers the position after it.  The
runner keeps both under a key that is a text, from which the partition can be read back.
-/

namespace Steveo

/-- The texts before and after the last occurrence of a separator are determined. -/
theorem append_separator_inj {α : Type*} {separator : α} {left right left' right' : List α}
    (absent : separator ∉ right) (absent' : separator ∉ right')
    (same : left ++ separator :: right = left' ++ separator :: right') :
    left = left' ∧ right = right' := by
  rcases List.append_eq_append_iff.mp same with ⟨more, rfl, rest⟩ | ⟨more, rfl, rest⟩
  · cases more with
    | nil => exact ⟨(List.append_nil left).symm, (List.cons.inj rest).2⟩
    | cons first more =>
        obtain ⟨-, rfl⟩ := List.cons.inj rest
        simp at absent
  · cases more with
    | nil => exact ⟨List.append_nil left', (List.cons.inj rest).2.symm⟩
    | cons first more =>
        obtain ⟨-, rfl⟩ := List.cons.inj rest
        simp at absent'

namespace TopicPartitionOffset

theorem key_toList (position : TopicPartitionOffset) :
    position.key.toList = position.topic.toList ++ '/' :: Nat.toDigits 10 position.partition := by
  simp [key]

/-- The key of a position determines its partition, whatever the topic is called. -/
theorem topicPartition_eq_of_key {left right : TopicPartitionOffset}
    (same : left.key = right.key) : left.topicPartition = right.topicPartition := by
  have plain : ∀ number, '/' ∉ Nat.toDigits 10 number := by
    intro number member
    have digit := Nat.isDigit_of_mem_toDigits (by omega) (by omega) member
    contradiction
  have texts : left.topic.toList ++ '/' :: Nat.toDigits 10 left.partition =
      right.topic.toList ++ '/' :: Nat.toDigits 10 right.partition := by
    rw [← key_toList, ← key_toList, same]
  obtain ⟨topics, digits⟩ := append_separator_inj (plain _) (plain _) texts
  have partitions : left.partition = right.partition := by
    rw [← Nat.ofDigitChars_toDigits (b := 10) (n := left.partition) (by omega) (by omega), digits,
      Nat.ofDigitChars_toDigits (by omega) (by omega)]
  exact Prod.ext (String.toList_injective topics) partitions

theorem key_eq_iff {left right : TopicPartitionOffset} :
    left.key = right.key ↔ left.topicPartition = right.topicPartition :=
  ⟨topicPartition_eq_of_key, key_eq_of_topicPartition⟩

end TopicPartitionOffset

namespace KafkaRunner

open TopicPartitionOffset

/-- A message of a batch than which none of its partition is higher. -/
structure Highest (batch : List TopicPartitionOffset) (message : TopicPartitionOffset) : Prop where
  member : message ∈ batch
  bound : ∀ other ∈ batch, other.topicPartition = message.topicPartition →
    other.offset ≤ message.offset

/-- The messages known as the highest of their partitions, after a part of a batch has been looked
at. -/
structure Tracks (batch : List TopicPartitionOffset)
    (highest : Dictionary String TopicPartitionOffset) : Prop where
  keyed : ∀ key message, highest.get key = some message →
    message.key = key ∧ Highest batch message
  known : ∀ message ∈ batch, ∃ found, highest.get message.key = some found

variable {batch : List TopicPartitionOffset} {message : TopicPartitionOffset}

/-- The highest message of a partition is determined by it. -/
theorem Highest.unique {other : TopicPartitionOffset} (highest : Highest batch message)
    (highest' : Highest batch other) (same : message.topicPartition = other.topicPartition) :
    message = other := by
  obtain ⟨topics, partitions⟩ := Prod.mk.inj same
  have offsets := le_antisymm (highest'.bound message highest.member same)
    (highest.bound other highest'.member same.symm)
  obtain ⟨topic, partition, offset⟩ := message
  obtain ⟨topic', partition', offset'⟩ := other
  obtain rfl : topic = topic' := topics
  obtain rfl : partition = partition' := partitions
  obtain rfl : offset = offset' := offsets
  rfl

theorem Highest.perm {permuted : List TopicPartitionOffset} (same : batch.Perm permuted) :
    Highest batch message ↔ Highest permuted message := by
  constructor
  · rintro ⟨member, bound⟩
    exact ⟨same.mem_iff.mp member, fun other own => bound other (same.mem_iff.mpr own)⟩
  · rintro ⟨member, bound⟩
    exact ⟨same.mem_iff.mpr member, fun other own => bound other (same.mem_iff.mp own)⟩

theorem Highest.append_singleton {last : TopicPartitionOffset} (highest : Highest batch message)
    (bound : last.topicPartition = message.topicPartition → last.offset ≤ message.offset) :
    Highest (batch ++ [last]) message where
  member := List.mem_append_left _ highest.member
  bound := by
    intro other member same
    rcases List.mem_append.mp member with earlier | new
    · exact highest.bound other earlier same
    · obtain rfl := List.mem_singleton.mp new
      exact bound same

/-- Looking at one more message keeps track of the highest ones. -/
theorem Tracks.raise {highest : Dictionary String TopicPartitionOffset}
    (tracks : Tracks batch highest) (last : TopicPartitionOffset) :
    Tracks (batch ++ [last]) (State.raise highest last) := by
  have other : ∀ message, message.key ≠ last.key → Highest batch message →
      Highest (batch ++ [last]) message := by
    intro message different highest
    exact highest.append_singleton fun same => (different (key_eq_iff.mpr same.symm)).elim
  -- Binding the last message is right where no message of its partition is higher.
  have bind : Highest (batch ++ [last]) last →
      Tracks (batch ++ [last]) (highest.set last.key last) := by
    intro top
    refine ⟨fun key message found => ?_, fun message member => ?_⟩
    · rw [Dictionary.get_set] at found
      split at found
      · rename_i same
        obtain rfl := Option.some.inj found
        exact ⟨same.symm, top⟩
      · rename_i different
        obtain ⟨keyed, highest⟩ := tracks.keyed key message found
        exact ⟨keyed, other message (keyed ▸ different) highest⟩
    · rw [Dictionary.get_set]
      split
      · exact ⟨last, rfl⟩
      · rename_i different
        rcases List.mem_append.mp member with earlier | new
        · exact tracks.known message earlier
        · exact (different (congrArg key (List.mem_singleton.mp new))).elim
  have last_member : last ∈ batch ++ [last] := List.mem_append_right _ (List.mem_singleton_self _)
  rw [State.raise]
  split
  · rename_i unknown
    refine bind ⟨last_member, fun message member same => ?_⟩
    rcases List.mem_append.mp member with earlier | new
    · obtain ⟨found, known⟩ := tracks.known message earlier
      rw [key_eq_iff.mpr same, unknown] at known
      contradiction
    · exact (congrArg offset (List.mem_singleton.mp new)).le
  · rename_i known found
    obtain ⟨keyed, highest⟩ := tracks.keyed last.key known found
    have same : known.topicPartition = last.topicPartition := key_eq_iff.mp keyed
    split
    · rename_i higher
      refine bind ⟨last_member, fun message member own => ?_⟩
      rcases List.mem_append.mp member with earlier | new
      · exact (highest.bound message earlier (own.trans same.symm)).trans higher.le
      · exact (congrArg offset (List.mem_singleton.mp new)).le
    · rename_i lower
      refine ⟨fun key message bound => ?_, fun message member => ?_⟩
      · obtain ⟨own, top⟩ := tracks.keyed key message bound
        refine ⟨own, top.append_singleton fun shared => ?_⟩
        rw [top.unique highest (shared.symm.trans same.symm)]
        exact not_lt.mp lower
      · rcases List.mem_append.mp member with earlier | new
        · exact tracks.known message earlier
        · exact ⟨known, List.mem_singleton.mp new ▸ found⟩

/-- The highest messages are known when the whole batch has been looked at. -/
theorem tracks_highestPerPartition (batch : List TopicPartitionOffset) :
    Tracks batch (State.highestPerPartition batch) := by
  induction batch using List.reverseRecOn with
  | nil => exact ⟨fun _ _ found => by contradiction, fun _ member => by contradiction⟩
  | append_singleton batch last induction =>
      rw [State.highestPerPartition, List.foldl_append]
      exact induction.raise last

/-- What a runner does when it commits a batch: the messages that it commits, and what it then
remembers. -/
structure CommitsMaxima (batch committed : List TopicPartitionOffset) (before after : State) :
    Prop where
  calls : after.calls = before.calls ++ committed.map .commitMessage
  once : (committed.map topicPartition).Nodup
  covered : ∀ message ∈ batch, message.topicPartition ∈ committed.map topicPartition
  highest : ∀ message, message ∈ committed ↔ Highest batch message
  remembered : ∀ message ∈ committed, after.processedOffsets.get message.key = some message.next
  others : ∀ key, (∀ message ∈ batch, message.key ≠ key) →
    after.processedOffsets.get key = before.processedOffsets.get key

/-- The entries of the highest messages are those messages under their keys. -/
theorem mem_entries_highestPerPartition {entry : String × TopicPartitionOffset} :
    entry ∈ (State.highestPerPartition batch).entries ↔
      entry.1 = entry.2.key ∧ Highest batch entry.2 := by
  have tracks := tracks_highestPerPartition batch
  obtain ⟨name, message⟩ := entry
  rw [Dictionary.mem_entries_iff_get]
  constructor
  · intro found
    obtain ⟨keyed, highest⟩ := tracks.keyed name message found
    exact ⟨keyed.symm, highest⟩
  · rintro ⟨keyed, highest⟩
    obtain rfl : name = message.key := keyed
    obtain ⟨known, found⟩ := tracks.known message highest.member
    obtain ⟨keyed, highest'⟩ := tracks.keyed message.key known found
    rw [found, highest'.unique highest (key_eq_iff.mp keyed)]

/-- A client that accepts every commit is given one for each partition of a batch. -/
theorem commitsMaxima_commitBatch (state : State) {accepted : Nat}
    (accepts : (State.highestPerPartition batch).entries.length ≤ accepted) :
    CommitsMaxima batch (State.highestPerPartition batch).values state
      (state.commitBatch accepted batch) := by
  have distinct := (State.highestPerPartition batch).distinct
  have committed : state.commitBatch accepted batch =
      (State.highestPerPartition batch).entries.foldl State.commit state := by
    rw [State.commitBatch, List.take_of_length_le accepts]
  have offsets : ∀ name, (state.commitBatch accepted batch).processedOffsets.get name =
      (((State.highestPerPartition batch).get name).map TopicPartitionOffset.next).or
        (state.processedOffsets.get name) := by
    intro name
    rw [committed, foldl_commit_spec]
    exact Dictionary.get_foldl_set TopicPartitionOffset.next distinct state.processedOffsets name
  have top : ∀ message, message ∈ (State.highestPerPartition batch).values ↔
      Highest batch message := by
    intro message
    rw [Dictionary.values, List.mem_map]
    constructor
    · rintro ⟨entry, member, rfl⟩
      exact (mem_entries_highestPerPartition.mp member).2
    · exact fun highest =>
        ⟨(message.key, message), mem_entries_highestPerPartition.mpr ⟨rfl, highest⟩, rfl⟩
  refine ⟨?_, ?_, fun message member => ?_, top, fun message member => ?_, fun name unused => ?_⟩
  · rw [committed, foldl_commit_spec]
    simp [Dictionary.values]
  · have keys : (State.highestPerPartition batch).entries.map Prod.fst =
        ((State.highestPerPartition batch).values.map key) := by
      rw [Dictionary.values, List.map_map]
      exact List.map_congr_left fun entry member => (mem_entries_highestPerPartition.mp member).1
    rw [keys] at distinct
    refine List.Nodup.of_map (fun partition => partition.1 ++ "/" ++ toString partition.2) ?_
    rwa [List.map_map]
  · obtain ⟨found, known⟩ := (tracks_highestPerPartition batch).known message member
    obtain ⟨keyed, highest⟩ := (tracks_highestPerPartition batch).keyed message.key found known
    exact List.mem_map.mpr ⟨found, (top found).mpr highest, key_eq_iff.mp keyed⟩
  · have known := (Dictionary.mem_entries_iff_get _ _ _).mp
      (mem_entries_highestPerPartition.mpr ⟨rfl, (top message).mp member⟩ :
        (message.key, message) ∈ (State.highestPerPartition batch).entries)
    rw [offsets, known]
    rfl
  · have unknown : (State.highestPerPartition batch).get name = none := by
      rw [Option.eq_none_iff_forall_not_mem]
      intro message found
      obtain ⟨keyed, highest⟩ := (tracks_highestPerPartition batch).keyed name message found
      exact unused message highest.member keyed
    rw [offsets, unknown]
    rfl

/-- A batch of any messages in any order is committed at the highest message of each of its
partitions, and another order commits the same messages. -/
theorem commitBatch_maxima (batch : List TopicPartitionOffset) (state : State) {accepted : Nat}
    (accepts : (State.highestPerPartition batch).entries.length ≤ accepted) :
    ∃ committed, CommitsMaxima batch committed state (state.commitBatch accepted batch) ∧
      ∀ permuted, batch.Perm permuted → ∀ others,
        (State.highestPerPartition permuted).entries.length ≤ others →
          ∃ alike, CommitsMaxima permuted alike state (state.commitBatch others permuted) ∧
            ∀ message, message ∈ alike ↔ message ∈ committed := by
  refine ⟨_, commitsMaxima_commitBatch state accepts, fun permuted same others accepts' =>
    ⟨_, commitsMaxima_commitBatch state accepts', fun message => ?_⟩⟩
  rw [(commitsMaxima_commitBatch state accepts).highest,
    (commitsMaxima_commitBatch state accepts').highest]
  exact (Highest.perm same).symm

/-- Two messages of each of two partitions. -/
def twoPartitions : List TopicPartitionOffset :=
  [⟨"orders", 0, 100⟩, ⟨"orders", 1, 201⟩, ⟨"orders", 0, 101⟩, ⟨"orders", 1, 200⟩]

/-- Four messages of two partitions are committed as two. -/
theorem twoPartitions_maxima :
    ∃ committed, CommitsMaxima twoPartitions committed (State.started {})
      ((State.started {}).commitBatch 2 twoPartitions) := by
  have accepts : (State.highestPerPartition twoPartitions).entries.length ≤ 2 := by decide
  obtain ⟨committed, maxima, -⟩ := commitBatch_maxima twoPartitions (State.started {}) accepts
  exact ⟨committed, maxima⟩

end KafkaRunner

end Steveo
