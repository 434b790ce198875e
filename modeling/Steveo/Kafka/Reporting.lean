import Mathlib.Algebra.Order.BigOperators.Group.List
import Steveo.Kafka.Processing
import Steveo.Kafka.Settlement

/-!
# What the reports of a Kafka runner account for

A runner settles each message of the batches that it takes exactly once.  The numbers in the
reports of its batches add up to what has been fulfilled and what has failed, and once its manager
has terminated no batch is left unreported.
-/

namespace Steveo

namespace KafkaRunner

/-! ## Totals -/

namespace Call

/-- How many messages a call reports as fulfilled. -/
def succeeded : Call → Nat
  | .batchProcessed _ succeeded _ => succeeded
  | _ => 0

/-- How many messages a call reports as failed. -/
def failed : Call → Nat
  | .batchProcessed _ _ failed => failed
  | _ => 0

/-- How many failures a call warns of. -/
def failureCount : Call → Nat
  | .batchFailure _ failureCount => failureCount
  | _ => 0

/-- How many messages are fulfilled. -/
def fulfilled : Call → Nat
  | .settled _ true => 1
  | _ => 0

/-- How many messages fail. -/
def rejected : Call → Nat
  | .settled _ false => 1
  | _ => 0

/-- Whether a call neither settles a message nor reports a batch. -/
def silent : Call → Bool
  | .settled _ _ | .batchProcessed _ _ _ | .batchFailure _ _ => false
  | _ => true

end Call

/-- A number of each call, added up. -/
def total (count : Call → Nat) (calls : List Call) : Nat := (calls.map count).sum

@[simp] theorem total_append (count : Call → Nat) (earlier later : List Call) :
    total count (earlier ++ later) = total count earlier + total count later := by
  simp [total]

@[simp] theorem total_singleton (count : Call → Nat) (call : Call) :
    total count [call] = count call := by
  simp [total]

theorem total_silent {count : Call → Nat} (none : ∀ call, call.silent = true → count call = 0)
    {calls : List Call} (silent : ∀ call ∈ calls, call.silent = true) : total count calls = 0 := by
  refine List.sum_eq_zero fun number member => ?_
  obtain ⟨call, listed, rfl⟩ := List.mem_map.mp member
  exact none call (silent call listed)

theorem settled_silent {calls : List Call} (silent : ∀ call ∈ calls, call.silent = true) :
    settled calls = [] := by
  refine List.flatMap_eq_nil_iff.mpr fun call listed => ?_
  have quiet := silent call listed
  cases call with
  | settled message fulfilled => cases quiet
  | _ => rfl

namespace Batch

/-- The messages of a batch that have not settled. -/
def unsettled (batch : Batch) : List TopicPartitionOffset := batch.waiting ++ batch.running

/-- How many messages of a batch have been fulfilled. -/
def succeeded (batch : Batch) : Nat :=
  batch.messages.length - batch.unsettled.length - batch.failures

/-- No more messages have failed than have settled. -/
def Sound (batch : Batch) : Prop :=
  batch.unsettled.length + batch.failures ≤ batch.messages.length

variable {batch : Batch} {message : TopicPartitionOffset}

theorem unsettled_start (waiting : message ∈ batch.waiting) :
    (batch.start message).unsettled.Perm batch.unsettled := by
  rw [unsettled, start]
  dsimp only
  refine List.perm_middle.trans ?_
  rw [← List.cons_append]
  exact (List.perm_cons_erase waiting).symm.append_right batch.running

theorem unsettled_settle (running : message ∈ batch.running) (fulfilled : Bool) :
    batch.unsettled.Perm (message :: (batch.settle message fulfilled).unsettled) := by
  rw [unsettled, unsettled, settle]
  exact ((List.perm_cons_erase running).append_left batch.waiting).trans List.perm_middle

theorem sound_start (sound : batch.Sound) (waiting : message ∈ batch.waiting) :
    (batch.start message).Sound ∧ (batch.start message).succeeded = batch.succeeded := by
  have same := (unsettled_start waiting).length_eq
  constructor
  · rw [Sound, same]
    exact sound
  · rw [succeeded, same]
    rfl

theorem sound_settle (sound : batch.Sound) (running : message ∈ batch.running) (fulfilled : Bool) :
    (batch.settle message fulfilled).Sound ∧
      (batch.settle message fulfilled).succeeded =
        batch.succeeded + Call.fulfilled (.settled message fulfilled) ∧
      (batch.settle message fulfilled).failures =
        batch.failures + Call.rejected (.settled message fulfilled) := by
  have fewer := (unsettled_settle running fulfilled).length_eq
  have same : (batch.settle message fulfilled).messages = batch.messages := rfl
  rw [List.length_cons] at fewer
  rw [Sound] at sound
  cases fulfilled with
  | true =>
      have kept : (batch.settle message true).failures = batch.failures := rfl
      simp only [Sound, succeeded, same, kept, Call.fulfilled, Call.rejected]
      exact ⟨by omega, by omega, rfl⟩
  | false =>
      have more : (batch.settle message false).failures = batch.failures + 1 := rfl
      simp only [Sound, succeeded, same, more, Call.fulfilled, Call.rejected]
      exact ⟨by omega, by omega, trivial⟩

end Batch

/-! ## What a turn does to the batches -/

/-- The messages that a turn begins to process. -/
def taken (before : State) : Event → List TopicPartitionOffset
  | .callback false messages => if before.manager = .running then messages else []
  | _ => []

/-- What a turn does to the batches and to the calls that account for them. -/
inductive Effect (before : State) (event : Event) (after : State) : Prop
  | quiet (none : taken before event = []) (batches : after.batches = before.batches)
      (added : List Call) (calls : after.calls = before.calls ++ added)
      (silent : ∀ call ∈ added, call.silent = true)
  | took (messages : List TopicPartitionOffset) (some : messages ≠ [])
      (same : taken before event = messages)
      (batches : after.batches = before.batches ++ [⟨messages, messages, [], 0⟩])
      (calls : after.calls = before.calls ++ [.handed messages])
  | started (none : taken before event = []) (index : Nat) (batch : Batch)
      (message : TopicPartitionOffset) (found : before.batches[index]? = some batch)
      (waiting : message ∈ batch.waiting)
      (batches : after.batches = before.batches.set index (batch.start message))
      (calls : after.calls = before.calls)
  | settled (none : taken before event = []) (index : Nat) (batch : Batch)
      (message : TopicPartitionOffset) (fulfilled : Bool)
      (found : before.batches[index]? = some batch) (running : message ∈ batch.running)
      (batches : after.batches = before.batches.set index (batch.settle message fulfilled))
      (calls : after.calls = before.calls ++ [.settled message fulfilled])
  | finished (none : taken before event = []) (index : Nat) (batch : Batch)
      (found : before.batches[index]? = some batch) (idle : batch.unsettled = [])
      (batches : after.batches = before.batches.eraseIdx index) (added : List Call)
      (calls : after.calls = before.calls ++ (reports batch ++ added))
      (silent : ∀ call ∈ added, call.silent = true)

section Steps

variable {config : KafkaConfiguration} {before after : State}

theorem effect_callback {error : Bool} {messages : List TopicPartitionOffset}
    (stepped : step config before (.callback error messages) = some after) :
    Effect before (.callback error messages) after := by
  obtain ⟨-, within, rfl⟩ := step_callback stepped
  obtain ⟨manager, offsets, requests, sleeping, batches, calls⟩ := before
  cases manager with
  | terminating | terminated =>
      exact .quiet (by cases error <;> rfl) rfl [.handed messages, .disconnect]
        (List.append_assoc _ _ _) (by simp [Call.silent])
  | paused =>
      exact .quiet (by cases error <;> rfl) rfl [.handed messages] rfl (by simp [Call.silent])
  | running =>
      cases error with
      | true =>
          exact .quiet rfl rfl [.handed messages, .connectionFailure, .consume config.getBatchSize]
            (by simp [State.consumeCallback, State.called, State.consume,
              RunnerState.shouldTerminate]) (by simp [Call.silent])
      | false =>
          cases messages with
          | nil =>
              exact .quiet rfl rfl [.handed [], .consume config.getBatchSize]
                (List.append_assoc _ _ _) (by simp [Call.silent])
          | cons message messages =>
              refine .took (message :: messages) (List.cons_ne_nil _ _) rfl ?_ rfl
              have whole : (message :: messages).take
                  (min (message :: messages).length config.getBatchSize) = message :: messages := by
                rw [min_eq_left within, List.take_length]
              exact congrArg (fun batch => batches ++ [⟨batch, batch, [], 0⟩]) whole

theorem step_effect {event : Event} (stepped : step config before event = some after) :
    Effect before event after := by
  cases event with
  | callback error messages => exact effect_callback stepped
  | wake =>
      obtain ⟨-, rfl⟩ := step_wake stepped
      exact .quiet rfl rfl [.consume config.getBatchSize] rfl (by simp [Call.silent])
  | start index message =>
      obtain ⟨batch, found, waiting, rfl⟩ := step_start stepped
      exact .started rfl index batch message found waiting rfl rfl
  | settle index message fulfilled =>
      obtain ⟨batch, found, running, rfl⟩ := step_settle stepped
      exact .settled rfl index batch message fulfilled found running rfl rfl
  | finish index accepted =>
      obtain ⟨batch, found, waiting, running, rfl⟩ := step_finish stepped
      let entries := (State.highestPerPartition batch.messages).entries.take accepted
      refine .finished rfl index batch found (by rw [Batch.unsettled, waiting, running]; rfl) ?_
        (entries.map (fun entry => .commitMessage entry.2) ++ [.consume config.getBatchSize]) ?_ ?_
      · rw [State.consume, State.called, State.commitBatch, foldl_commit_spec, report_spec]
      · rw [State.consume, State.called, State.commitBatch, foldl_commit_spec, report_spec]
        simp only [List.append_assoc]
        rfl
      · intro call member
        rcases List.mem_append.mp member with commit | consume
        · obtain ⟨entry, -, rfl⟩ := List.mem_map.mp commit
          rfl
        · obtain rfl := List.mem_singleton.mp consume
          rfl
  | revoke =>
      obtain rfl := Option.some.inj stepped
      rw [State.flushOffsets]
      split
      · exact .quiet rfl rfl [] (by simp) (by simp)
      · exact .quiet rfl rfl [.commitSync before.processedOffsets.values] rfl
          (by simp [Call.silent])
  | pause | resume =>
      obtain rfl := Option.some.inj stepped
      exact .quiet rfl rfl [] (by simp) (by simp)
  | stop =>
      obtain rfl := Option.some.inj stepped
      refine .quiet rfl ?_ [] ?_ (by simp)
      · split <;> rfl
      · rw [List.append_nil]
        split <;> rfl

end Steps

/-! ## Accounts -/

/-- The messages that have been taken have settled or belong to a batch, and so do the numbers of
those that have been fulfilled and that have failed: they have been reported or belong to one. -/
structure Accounts (taken : List TopicPartitionOffset) (state : State) : Prop where
  sound : ∀ batch ∈ state.batches, batch.Sound
  messages : (settled state.calls ++ state.batches.flatMap Batch.unsettled).Perm taken
  succeeded : total Call.succeeded state.calls + (state.batches.map Batch.succeeded).sum =
    total Call.fulfilled state.calls
  failed : total Call.failed state.calls + (state.batches.map Batch.failures).sum =
    total Call.rejected state.calls
  warned : total Call.failureCount state.calls = total Call.failed state.calls

/-- A batch among others, of which it is one. -/
theorem exists_others {batches : List Batch} {index : Nat} {batch : Batch}
    (found : batches[index]? = some batch) :
    ∃ earlier later, batches = earlier ++ batch :: later ∧
      (∀ next, batches.set index next = earlier ++ next :: later) ∧
        batches.eraseIdx index = earlier ++ later := by
  obtain ⟨bound, rfl⟩ := List.getElem?_eq_some_iff.mp found
  refine ⟨batches.take index, batches.drop (index + 1), ?_, fun next => ?_, ?_⟩
  · rw [← List.drop_eq_getElem_cons bound, List.take_append_drop]
  · rw [List.set_eq_take_append_cons_drop, if_pos bound]
  · rw [List.eraseIdx_eq_take_drop_succ]

section Accounts

variable {config : KafkaConfiguration} {before after : State} {known : List TopicPartitionOffset}

theorem total_reports (batch : Batch) :
    total Call.succeeded (reports batch) = batch.messages.length - batch.failures ∧
      total Call.failed (reports batch) = batch.failures ∧
        total Call.failureCount (reports batch) = batch.failures ∧
          total Call.fulfilled (reports batch) = 0 ∧ total Call.rejected (reports batch) = 0 ∧
            settled (reports batch) = [] := by
  rw [reports]
  split
  · simp [total, settled, Call.succeeded, Call.failed, Call.failureCount, Call.fulfilled,
      Call.rejected, Call.settlements]
  · rename_i fine
    have none : batch.failures = 0 := by omega
    simp [none, total, settled, Call.succeeded, Call.failed, Call.failureCount, Call.fulfilled,
      Call.rejected, Call.settlements]

/-- A batch that goes on keeps the accounts, if what happens to its messages is called. -/
theorem Accounts.goOn (accounts : Accounts known before) {index : Nat} {batch next : Batch}
    (found : before.batches[index]? = some batch) (sound : next.Sound)
    (batches : after.batches = before.batches.set index next) {added : List Call}
    (calls : after.calls = before.calls ++ added)
    (unsettled : batch.unsettled.Perm (settled added ++ next.unsettled))
    (succeeded : next.succeeded = batch.succeeded + total Call.fulfilled added)
    (failed : next.failures = batch.failures + total Call.rejected added)
    (unreported : total Call.succeeded added = 0 ∧ total Call.failed added = 0 ∧
      total Call.failureCount added = 0) : Accounts known after := by
  obtain ⟨earlier, later, split, changed, -⟩ := exists_others found
  obtain ⟨others, messages, fulfilled, rejected, warned⟩ := accounts
  rw [changed] at batches
  rw [split] at others messages fulfilled rejected
  constructor
  · rw [batches]
    simp only [List.mem_append, List.mem_cons] at others ⊢
    rintro other (old | rfl | new)
    · exact others other (.inl old)
    · exact sound
    · exact others other (.inr (.inr new))
  · rw [batches, calls]
    refine List.Perm.trans ?_ messages
    simp only [settled_append, List.flatMap_append, List.flatMap_cons, List.append_assoc]
    refine List.Perm.append_left _ (List.perm_append_comm_assoc _ _ _ |>.trans ?_)
    refine List.Perm.append_left _ ?_
    rw [← List.append_assoc]
    exact unsettled.symm.append_right _
  · rw [batches, calls, total_append, total_append, unreported.1]
    simp only [List.map_append, List.map_cons, List.sum_append, List.sum_cons, succeeded]
      at fulfilled ⊢
    omega
  · rw [batches, calls, total_append, total_append, unreported.2.1]
    simp only [List.map_append, List.map_cons, List.sum_append, List.sum_cons, failed]
      at rejected ⊢
    omega
  · rw [calls, total_append, total_append, unreported.2.1, unreported.2.2]
    exact warned

theorem total_of_silent {added : List Call} (silent : ∀ call ∈ added, call.silent = true) :
    total Call.succeeded added = 0 ∧ total Call.failed added = 0 ∧
      total Call.failureCount added = 0 ∧ total Call.fulfilled added = 0 ∧
        total Call.rejected added = 0 := by
  refine ⟨total_silent ?_ silent, total_silent ?_ silent, total_silent ?_ silent,
    total_silent ?_ silent, total_silent ?_ silent⟩
  all_goals rintro (_ | _ | _ | _ | _ | _ | _ | _ | _) quiet <;> first | rfl | cases quiet

/-- Where no batch is concerned, the accounts are kept. -/
theorem Accounts.quiet (accounts : Accounts known before) (batches : after.batches = before.batches)
    {added : List Call} (calls : after.calls = before.calls ++ added)
    (silent : ∀ call ∈ added, call.silent = true) : Accounts known after := by
  obtain ⟨sound, messages, succeeded, failed, warned⟩ := accounts
  obtain ⟨one, two, three, four, five⟩ := total_of_silent silent
  constructor
  · rwa [batches]
  · rw [batches, calls, settled_append, settled_silent silent, List.append_nil]
    exact messages
  · rw [batches, calls, total_append, total_append, one, four]
    exact succeeded
  · rw [batches, calls, total_append, total_append, two, five]
    exact failed
  · rw [calls, total_append, total_append, two, three]
    exact warned

/-- A batch that has just been taken has settled none of its messages. -/
theorem Accounts.took (accounts : Accounts known before) {fresh : List TopicPartitionOffset}
    (batches : after.batches = before.batches ++ [⟨fresh, fresh, [], 0⟩])
    (calls : after.calls = before.calls ++ [.handed fresh]) : Accounts (known ++ fresh) after := by
  obtain ⟨sound, messages, succeeded, failed, warned⟩ := accounts
  constructor
  · rw [batches]
    intro batch member
    rcases List.mem_append.mp member with old | new
    · exact sound batch old
    · obtain rfl := List.mem_singleton.mp new
      simp [Batch.Sound, Batch.unsettled]
  · rw [batches, calls]
    simpa [Call.settlements, Batch.unsettled, ← List.append_assoc] using
      messages.append_right fresh
  · rw [batches, calls]
    simpa [Call.succeeded, Call.fulfilled, Batch.succeeded, Batch.unsettled] using succeeded
  · rw [batches, calls]
    simpa [Call.failed, Call.rejected] using failed
  · rw [calls]
    simpa [Call.failureCount, Call.failed] using warned

/-- A batch whose messages have settled leaves with its report. -/
theorem Accounts.finished (accounts : Accounts known before) {index : Nat} {batch : Batch}
    (found : before.batches[index]? = some batch) (idle : batch.unsettled = [])
    (batches : after.batches = before.batches.eraseIdx index) {added : List Call}
    (calls : after.calls = before.calls ++ (reports batch ++ added))
    (silent : ∀ call ∈ added, call.silent = true) : Accounts known after := by
  obtain ⟨earlier, later, split, -, erased⟩ := exists_others found
  obtain ⟨sound, messages, succeeded, failed, warned⟩ := accounts
  obtain ⟨one, two, three, four, five⟩ := total_of_silent silent
  obtain ⟨size, failures, warning, fulfilled, rejected, settles⟩ := total_reports batch
  rw [erased] at batches
  rw [split] at sound messages succeeded failed
  have own : batch.succeeded = batch.messages.length - batch.failures := by
    rw [Batch.succeeded, idle]
    rfl
  constructor
  · rw [batches]
    exact fun other member => sound other (List.mem_append.mpr
      ((List.mem_append.mp member).imp_right (List.mem_cons_of_mem _)))
  · rw [batches, calls]
    simpa [idle, settles, settled_silent silent] using messages
  · rw [batches, calls, total_append, total_append, total_append, total_append, size, one,
      fulfilled, four]
    simp only [List.map_append, List.map_cons, List.sum_append, List.sum_cons, own] at succeeded ⊢
    omega
  · rw [batches, calls, total_append, total_append, total_append, total_append, failures, two,
      rejected, five]
    simp only [List.map_append, List.map_cons, List.sum_append, List.sum_cons] at failed ⊢
    omega
  · rw [calls, total_append, total_append, total_append, total_append, failures, two, warning,
      three, warned]

theorem Accounts.step (accounts : Accounts known before) {event : Event}
    (effect : Effect before event after) : Accounts (known ++ taken before event) after := by
  cases effect with
  | quiet none batches added calls silent =>
      rw [none, List.append_nil]
      exact accounts.quiet batches calls silent
  | took fresh _ same batches calls =>
      rw [same]
      exact accounts.took batches calls
  | started none index batch message found waiting batches calls =>
      have own := accounts.sound batch (List.mem_of_getElem? found)
      obtain ⟨sound, succeeded⟩ := Batch.sound_start own waiting
      rw [none, List.append_nil]
      exact accounts.goOn found sound batches (calls.trans (List.append_nil _).symm)
        (Batch.unsettled_start waiting).symm succeeded rfl ⟨rfl, rfl, rfl⟩
  | settled none index batch message fulfilled found running batches calls =>
      have own := accounts.sound batch (List.mem_of_getElem? found)
      obtain ⟨sound, succeeded, failed⟩ := Batch.sound_settle own running fulfilled
      rw [none, List.append_nil]
      refine accounts.goOn found sound batches calls ?_ ?_ ?_ ⟨rfl, rfl, rfl⟩
      · rw [settled_singleton]
        exact Batch.unsettled_settle running fulfilled
      · rw [total_singleton]
        exact succeeded
      · rw [total_singleton]
        exact failed
  | finished none index batch found idle batches added calls silent =>
      rw [none, List.append_nil]
      exact accounts.finished found idle batches calls silent

theorem accounts_started : Accounts [] (State.started config) := by
  constructor <;> simp [State.started, State.consume, State.called, Call.settlements,
    Call.succeeded, Call.fulfilled, Call.failed, Call.rejected, Call.failureCount]

end Accounts

/-! ## The end of a runner -/

/-- There is one thing outstanding at most, and nothing once the manager has terminated. -/
structure Winding (state : State) : Prop where
  single : state.outstanding ≤ 1
  ended : state.manager = .terminated → state.outstanding = 0

section Ends

variable {config : KafkaConfiguration} {before after : State}

/-- The manager terminates when the only request is answered. -/
theorem Winding.step (winding : Winding before) {event : Event}
    (stepped : KafkaRunner.step config before event = some after) : Winding after := by
  refine ⟨(outstanding_step stepped).trans winding.single, fun terminated => ?_⟩
  by_cases ended : before.manager = .terminated
  · exact Nat.le_zero.mp ((outstanding_step stepped).trans (winding.ended ended).le)
  · cases event with
    | callback error messages =>
        obtain ⟨requested, -, rfl⟩ := step_callback stepped
        obtain ⟨one, none, idle⟩ := requested_only winding.single requested
        rw [State.consumeCallback] at terminated ⊢
        split
        · simp [State.outstanding, State.shutdown, State.called, one, none, idle]
        · rename_i active
          rw [if_neg active] at terminated
          split at terminated
          · exact absurd terminated ended
          · split at terminated
            · exact absurd terminated ended
            · split at terminated
              · exact absurd terminated ended
              · exact absurd terminated ended
    | wake =>
        obtain ⟨-, rfl⟩ := step_wake stepped
        exact absurd terminated ended
    | start index message =>
        obtain ⟨batch, -, -, rfl⟩ := step_start stepped
        exact absurd terminated ended
    | settle index message fulfilled =>
        obtain ⟨batch, -, -, rfl⟩ := step_settle stepped
        exact absurd terminated ended
    | finish index accepted =>
        obtain ⟨batch, -, -, -, rfl⟩ := step_finish stepped
        rw [State.consume, State.called, State.commitBatch, foldl_commit_spec, report_spec]
          at terminated
        exact absurd terminated ended
    | revoke =>
        obtain rfl := Option.some.inj stepped
        rw [State.flushOffsets] at terminated
        split at terminated
        · exact absurd terminated ended
        · exact absurd terminated ended
    | pause | resume =>
        obtain rfl := Option.some.inj stepped
        contradiction
    | stop =>
        obtain rfl := Option.some.inj stepped
        split at terminated
        · exact absurd terminated ended
        · contradiction

end Ends

/-- When a runner that has been started once has terminated its manager, nothing is outstanding,
each message of the batches that it took has settled once, and the reports of its batches add up to
the messages that have been fulfilled and those that have failed. -/
theorem terminated_accounts (config : KafkaConfiguration) {events : List Event} {final : State}
    (execution : (consuming config).run events (State.started config) = some final)
    (terminated : final.manager = .terminated) :
    final.outstanding = 0 ∧
      (settled final.calls).Perm
        ((consuming config).gathered taken events (State.started config)) ∧
      total Call.succeeded final.calls = total Call.fulfilled final.calls ∧
      total Call.failed final.calls = total Call.rejected final.calls ∧
      total Call.failureCount final.calls = total Call.rejected final.calls := by
  have started : Winding (State.started config) :=
    ⟨Nat.le_refl 1, fun terminated => by cases terminated⟩
  have winds : ∀ before event after, Winding before →
      (consuming config).step before event = some after → Winding after :=
    fun _ _ _ winding stepped => winding.step stepped
  have winding := System.invariant_of_run winds started execution
  have preserved : ∀ earlier before event after, Accounts earlier before → True →
      (consuming config).step before event = some after →
        Accounts (earlier ++ taken before event) after :=
    fun _ _ _ _ accounts _ stepped => accounts.step (step_effect stepped)
  have accounts := System.invariant_gathered Accounts preserved accounts_started
    (fun _ _ => trivial) execution
  have idle := winding.ended terminated
  have none : final.batches = [] :=
    List.eq_nil_of_length_eq_zero (by rw [State.outstanding] at idle; omega)
  obtain ⟨-, messages, succeeded, failed, warned⟩ := accounts
  rw [none] at messages succeeded failed
  simp only [List.flatMap_nil, List.append_nil, List.nil_append, List.map_nil, List.sum_nil,
    Nat.add_zero] at messages succeeded failed
  exact ⟨idle, messages, succeeded, failed, warned.trans failed⟩

/-- A message fails and its batch is committed, and the next one arrives after a call of `stop`. -/
def stoppedRun : List Event :=
  [.callback false [order 0], .start 0 (order 0), .settle 0 (order 0) false, .finish 0 1, .stop,
    .callback false [order 1]]

theorem stoppedRun_accounts :
    ∃ final, (consuming {}).run stoppedRun (State.started {}) = some final ∧
      (settled final.calls).Perm [order 0] ∧ total Call.failed final.calls = 1 := by
  obtain ⟨final, execution, terminated, rejected⟩ : ∃ final,
      (consuming {}).run stoppedRun (State.started {}) = some final ∧
        final.manager = .terminated ∧ total Call.rejected final.calls = 1 := ⟨_, rfl, rfl, rfl⟩
  obtain ⟨-, messages, -, failed, -⟩ := terminated_accounts {} execution terminated
  exact ⟨final, execution, messages, failed.trans rejected⟩

end KafkaRunner

end Steveo
