import Steveo.Kafka.Runner
import Steveo.Library.Census
import Steveo.Library.Simulation
import Steveo.Messaging.Batch

/-!
# Processing a batch of Kafka messages

The Kafka runner maps `receive` over the messages of a batch, with limited concurrency, and
observes each outcome.  This file gives `receive` as a program whose calls are answered from the
outside, and shows that whatever happens to the mapping, the consume loop can start and settle its
messages in the same way and reports how they have settled.
-/

namespace Steveo

namespace Batch

open Async

variable {η : Type} (setup : Setup η)

namespace Kafka

/-- The `try` block around the handling of one message. -/
def handleMessage (message : KafkaMessage) : Handling η Unit :=
  match message.value with
  | none => reject "JsonParsingError"
  | some payload => do
      let _ ← ofExcept (getContext setup.arrival payload)
      emit "runner_receive" message.topic
      match setup.registry.getTask message.topic with
      | none => pure ()
      | some task =>
          let data := (ownFields payload).without "_meta"
          let runnerContext ← ofExcept (getContext setup.arrival payload)
          callback task (data.spread [("value", .obj data)]) (.context runnerContext)
          let _ ← ofExcept (getContext setup.arrival payload)
          emit "runner_complete" message.topic

/-- Handle one message. -/
def receive (message : KafkaMessage) : Handling η Unit := do
  match ← (handleMessage setup message).attempt with
  | .ok _ => pure ()
  | .error thrown =>
      emit "runner_failure" message.topic
      reject thrown

/-- Handle the messages of a batch side by side and observe each outcome. -/
def processBatch (config : KafkaConfiguration) (batch : List KafkaMessage) :
    Mapping (Call.Answer (η := η)) (Except String Unit) :=
  .begin (config.maxConcurrent (batch.map KafkaMessage.toTopicPartitionOffset))
    ((batch.map (receive setup)).map attempt)

/-- A message is not handled without making a call. -/
theorem receive_awaits (message : KafkaMessage) :
    ∃ call resume, (receive setup message).attempt = .await call resume := by
  have handles : (∃ thrown, handleMessage setup message = .settled (.error thrown)) ∨
      ∃ call resume, handleMessage setup message = .await call resume := by
    rw [handleMessage]
    cases message.value with
    | none => exact .inl ⟨_, rfl⟩
    | some payload =>
        dsimp only
        cases getContext setup.arrival payload with
        | error thrown => exact .inl ⟨_, rfl⟩
        | ok context => exact .inr ⟨_, _, rfl⟩
  rw [receive]
  rcases handles with ⟨thrown, same⟩ | ⟨call, resume, same⟩
  · rw [same]
    exact ⟨_, _, rfl⟩
  · rw [same]
    exact ⟨_, _, rfl⟩

end Kafka

section Uninterrupted

variable {σ : Type} (runner : Runner σ)

/-- Without interruption the Kafka runner's program for a message does what the runner does. -/
theorem interpret_kafka_receive (message : KafkaMessage) :
    (Kafka.receive (Setup.of runner) message).interpret (serve runner) =
      KafkaRunner.receive runner message := by
  have handles : (Kafka.handleMessage (Setup.of runner) message).interpret (serve runner) =
      KafkaRunner.handleMessage runner message := by
    rw [Kafka.handleMessage, KafkaRunner.handleMessage]
    cases message.value with
    | none => rfl
    | some payload =>
        simp only [interpret_bind, interpret_ofExcept, interpret_emit]
        refine bind_congr fun context => bind_congr fun _ => ?_
        have registry : (Setup.of runner).registry = runner.registry := rfl
        rw [registry]
        cases runner.registry.getTask message.topic with
        | none => rfl
        | some task =>
            simp only [interpret_bind, interpret_callback, interpret_ofExcept, interpret_emit]
            rfl
  simp only [Kafka.receive, KafkaRunner.receive, interpret_bind, interpret_attempt, handles]
  refine bind_congr fun outcome => ?_
  cases outcome with
  | ok _ => rfl
  | error thrown => simp only [interpret_bind, interpret_emit, interpret_reject]

end Uninterrupted

end Batch

namespace KafkaRunner

open Async Mapping

variable {κ : Type} {ω : κ → Type}

/-- The consume loop of a runner. -/
def consuming (config : KafkaConfiguration) : System State Event := ⟨step config⟩

/-- A handling that has been fulfilled. -/
def fulfilled (item : Item ω (Except String Unit)) : Bool :=
  match item.program with
  | .settled (.ok (.ok _)) => true
  | _ => false

/-- A handling that has failed. -/
def failed (item : Item ω (Except String Unit)) : Bool :=
  match item.program with
  | .settled (.ok (.error _)) => true
  | _ => false

/-- The calls that tell how the messages of a mapping have settled. -/
def outcomes (messages : List TopicPartitionOffset) (mapping : Mapping ω (Except String Unit)) :
    List Call :=
  (termsAt messages mapping fulfilled).map (fun message => .settled message true) ++
    (termsAt messages mapping failed).map fun message => .settled message false

/-- A batch is as far as a mapping over its messages, and some calls tell what has settled. -/
structure Represents (messages : List TopicPartitionOffset)
    (mapping : Mapping ω (Except String Unit)) (batch : Batch) (calls : List Call) : Prop where
  own : batch.messages = messages
  waiting : batch.waiting.Perm (termsAt messages mapping Item.waiting)
  running : batch.running.Perm (termsAt messages mapping Item.running)
  failures : batch.failures = (termsAt messages mapping failed).length
  settled : calls.Perm (outcomes messages mapping)

/-- A mapping over observed programs none of which settles at once. -/
structure Observing (limit : Nat) (count : Nat) (mapping : Mapping ω (Except String Unit)) :
    Prop where
  limited : mapping.limit = limit
  counted : mapping.items.length = count
  contained : mapping.Contained (fun _ _ => True) fun _ _ => False
  awaits : ∀ item ∈ mapping.items, item.started = false →
    ∃ call resume, item.program = .await call resume

section Steps

variable {messages : List TopicPartitionOffset} {limit index : Nat}
  {before after : Mapping ω (Except String Unit)} {item next : Item ω (Except String Unit)}
  {message : TopicPartitionOffset} {batch : Batch} {calls : List Call}

/-- What happens to one item keeps a mapping observing. -/
theorem Observing.step {event : Mapping.Event ω}
    (observing : Observing limit messages.length before)
    (stepped : Mapping.step before event = some after) :
    Observing limit messages.length after := by
  have contained : after.Contained (fun _ _ => True) fun _ _ => False := by
    cases event with
    | start index => exact observing.contained.start stepped
    | reply index environment =>
        obtain ⟨-, -, -, -, -, kept⟩ :=
          observing.contained.reply (fun _ => trivial) stepped
        exact kept id
  obtain ⟨index, item, next, found, -, started, rfl⟩ := step_item stepped
  refine ⟨observing.limited, ?_, contained, ?_⟩
  · rw [List.length_set]
    exact observing.counted
  · intro other member unstarted
    rcases List.mem_or_eq_of_mem_set member with member | rfl
    · exact observing.awaits other member unstarted
    · rw [started] at unstarted
      cases unstarted

/-- The items in flight are those that run. -/
theorem Observing.inFlight (observing : Observing limit messages.length before) :
    before.inFlight = (termsAt messages before Item.running).length := by
  rw [length_termsAt observing.counted, Mapping.inFlight]
  refine List.countP_congr fun item member => ?_
  have fulfils := observing.contained item member
  obtain ⟨origin, started, log, program, trace, idle⟩ := item
  cases started with
  | false => simp [Item.inFlight, Item.running]
  | true =>
      cases program with
      | await call resume => simp [Item.inFlight, Item.running, Item.settled]
      | settled outcome =>
          obtain ⟨value, rfl⟩ := fulfils
          simp [Item.inFlight, Item.running, Item.settled]

/-- Starting an item starts its message. -/
theorem Represents.start (represents : Represents messages before batch calls)
    (observing : Observing limit messages.length before)
    (found : before.items[index]? = some item) (named : messages[index]? = some message)
    (unstarted : item.started = false) :
    Represents messages (before.put index item.start) (batch.start message) calls := by
  obtain ⟨call, resume, awaits⟩ := observing.awaits item (List.mem_of_getElem? found) unstarted
  have awaits' : item.start.program = .await call resume := awaits
  refine ⟨represents.own, ?_, ?_, ?_, ?_⟩
  · have left : (termsAt messages (before.put index item.start) Item.waiting).Perm
        ((termsAt messages before Item.waiting).erase message) :=
      termsAt_leave found named (by rw [Item.waiting, unstarted]; rfl) rfl
    exact (represents.waiting.erase message).trans left.symm
  · have entered : (termsAt messages (before.put index item.start) Item.running).Perm
        (message :: termsAt messages before Item.running) := by
      refine termsAt_enter found named ?_ ?_
      · rw [Item.running, unstarted]
        rfl
      · rw [Item.running, Item.settled, awaits']
        rfl
    exact (represents.running.cons message).trans entered.symm
  · have stays : failed item.start = failed item := rfl
    rw [termsAt_stay found named stays]
    exact represents.failures
  · have fulfils : fulfilled item.start = fulfilled item := rfl
    have fails : failed item.start = failed item := rfl
    rw [outcomes, termsAt_stay found named fulfils, termsAt_stay found named fails]
    exact represents.settled

/-- An answer that does not settle an item changes nothing. -/
theorem Represents.goOn (represents : Represents messages before batch calls)
    (found : before.items[index]? = some item) (named : messages[index]? = some message)
    (started : item.started = true) (stays : next.started = true)
    (unsettled : ∃ call resume, item.program = .await call resume)
    (pending : ∃ call resume, next.program = .await call resume) :
    Represents messages (before.put index next) batch calls := by
  obtain ⟨call, resume, awaits⟩ := unsettled
  obtain ⟨other, resumes, continues⟩ := pending
  have waits : next.waiting = item.waiting := by rw [Item.waiting, Item.waiting, started, stays]
  have runs : next.running = item.running := by
    rw [Item.running, Item.running, Item.settled, Item.settled, started, stays, awaits, continues]
  have fulfils : fulfilled next = fulfilled item := by
    rw [fulfilled, fulfilled, awaits, continues]
  have fails : failed next = failed item := by rw [failed, failed, awaits, continues]
  refine ⟨represents.own, ?_, ?_, ?_, ?_⟩
  · rw [termsAt_stay found named waits]
    exact represents.waiting
  · rw [termsAt_stay found named runs]
    exact represents.running
  · rw [termsAt_stay found named fails]
    exact represents.failures
  · rw [outcomes, termsAt_stay found named fulfils, termsAt_stay found named fails]
    exact represents.settled

/-- An answer that settles an item settles its message. -/
theorem Represents.settle (represents : Represents messages before batch calls)
    (found : before.items[index]? = some item) (named : messages[index]? = some message)
    (started : item.started = true) (stays : next.started = true)
    (unsettled : ∃ call resume, item.program = .await call resume)
    {outcome : Except String Unit} (settles : next.program = .settled (.ok outcome)) :
    Represents messages (before.put index next) (batch.settle message outcome.toBool)
      (calls ++ [.settled message outcome.toBool]) := by
  obtain ⟨call, resume, awaits⟩ := unsettled
  have waits : next.waiting = item.waiting := by rw [Item.waiting, Item.waiting, started, stays]
  have ran : item.running = true := by
    rw [Item.running, Item.settled, started, awaits]
    rfl
  have rests : next.running = false := by
    rw [Item.running, Item.settled, stays, settles]
    rfl
  have unfulfilled : fulfilled item = false := by rw [fulfilled, awaits]
  have unfailed : failed item = false := by rw [failed, awaits]
  refine ⟨represents.own, ?_, ?_, ?_, ?_⟩
  · rw [termsAt_stay found named waits]
    exact represents.waiting
  · exact (represents.running.erase message).trans (termsAt_leave found named ran rests).symm
  · cases outcome with
    | ok value =>
        have fails : failed next = failed item := by rw [unfailed, failed, settles]
        rw [termsAt_stay found named fails]
        exact represents.failures
    | error thrown =>
        have fails : failed next = true := by rw [failed, settles]
        rw [(termsAt_enter found named unfailed fails).length_eq, List.length_cons]
        exact congrArg (· + 1) represents.failures
  · refine (represents.settled.append_right _).trans ?_
    cases outcome with
    | ok value =>
        have fails : failed next = failed item := by rw [unfailed, failed, settles]
        have fulfils : fulfilled next = true := by rw [fulfilled, settles]
        rw [outcomes, outcomes, termsAt_stay found named fails]
        have entered := (termsAt_enter found named unfulfilled fulfils).map
          fun message => Call.settled message true
        refine List.Perm.trans ?_ (entered.append_right _).symm
        rw [List.map_cons, List.cons_append]
        exact List.perm_append_singleton _ _
    | error thrown =>
        have fails : failed next = true := by rw [failed, settles]
        have fulfils : fulfilled next = fulfilled item := by rw [unfulfilled, fulfilled, settles]
        rw [outcomes, outcomes, termsAt_stay found named fulfils, List.append_assoc]
        have entered := (termsAt_enter found named unfailed fails).map
          fun message => Call.settled message false
        refine List.Perm.append_left _ (List.Perm.trans ?_ entered.symm)
        rw [List.map_cons]
        exact List.perm_append_singleton _ _

end Steps

/-! ## The consume loop follows the mapping -/

/-- A turn that starts or settles a message of a batch. -/
def Event.Within (position : Nat) : Event → Prop
  | .start batch _ | .settle batch _ _ => batch = position
  | _ => False

/-- A runner has come as far with a batch as a mapping, since it was in another state. -/
def Follows (config : KafkaConfiguration) (messages : List TopicPartitionOffset) (position : Nat)
    (start : State) (mapping : Mapping ω (Except String Unit)) (state : State) : Prop :=
  Observing (config.maxConcurrent messages) messages.length mapping ∧
    ∃ batch calls, state.batches[position]? = some batch ∧ state.calls = start.calls ++ calls ∧
      Represents messages mapping batch calls

section Runs

variable {config : KafkaConfiguration} {messages : List TopicPartitionOffset} {position : Nat}
  {start state : State} {before after : Mapping ω (Except String Unit)}

theorem getElem?_set_batch {batches : List Batch} {batch : Batch} (next : Batch)
    (found : batches[position]? = some batch) :
    (batches.set position next)[position]? = some next :=
  List.getElem?_set_self (List.getElem?_eq_some_iff.mp found).1

/-- What happens to a mapping, the consume loop can do. -/
theorem Follows.step {event : Mapping.Event ω}
    (follows : Follows config messages position start before state)
    (stepped : Mapping.step before event = some after) :
    ∃ turns last, (∀ turn ∈ turns, turn.Within position) ∧
      (consuming config).run turns state = some last ∧
        Follows config messages position start after last := by
  obtain ⟨observing, batch, calls, found, appended, represents⟩ := follows
  have kept := observing.step stepped
  have named : ∀ {index : Nat} {item : Item ω (Except String Unit)},
      before.items[index]? = some item → ∃ message, messages[index]? = some message := by
    intro index item present
    obtain ⟨bound, -⟩ := List.getElem?_eq_some_iff.mp present
    exact ⟨_, List.getElem?_eq_getElem (observing.counted ▸ bound)⟩
  cases event with
  | start index =>
      obtain ⟨item, present, unstarted, -, room, rfl⟩ := Mapping.step_start stepped
      obtain ⟨message, message_at⟩ := named present
      have waits : message ∈ batch.waiting := represents.waiting.mem_iff.mpr
        (mem_termsAt present message_at (by rw [Item.waiting, unstarted]; rfl))
      have fits : batch.running.length < config.maxConcurrent batch.messages := by
        rw [represents.own, represents.running.length_eq, ← observing.inFlight,
          ← observing.limited]
        exact room
      refine ⟨[.start position message],
        { state with batches := state.batches.set position (batch.start message) }, by
          simp [Event.Within], ?_, kept, batch.start message, calls,
          getElem?_set_batch _ found, appended,
          represents.start observing present message_at unstarted⟩
      show Option.bind (Option.bind _ _) _ = _
      rw [found, Option.bind_some, if_pos ⟨waits, fits⟩]
      rfl
  | reply index environment =>
      obtain ⟨item, next, present, replied, rfl⟩ := step_reply stepped
      obtain ⟨begun, stays, -, call, resume, awaits, -, -⟩ := Item.reply_spec replied
      obtain ⟨message, message_at⟩ := named present
      cases goes : next.program with
      | await other resumes =>
          exact ⟨[], state, by simp, rfl, kept, batch, calls, found, appended,
            represents.goOn present message_at begun stays ⟨call, resume, awaits⟩
              ⟨other, resumes, goes⟩⟩
      | settled outcome =>
          have member : next ∈ before.items.set index next :=
            List.mem_set (List.getElem?_eq_some_iff.mp present).1 next
          have fulfils := kept.contained next member
          rw [goes] at fulfils
          obtain ⟨result, rfl⟩ := fulfils
          have runs : message ∈ batch.running := by
            refine represents.running.mem_iff.mpr (mem_termsAt present message_at ?_)
            rw [Item.running, Item.settled, begun, awaits]
            rfl
          refine ⟨[.settle position message result.toBool],
            { state with
              batches := state.batches.set position (batch.settle message result.toBool) }.called
                (.settled message result.toBool), by simp [Event.Within], ?_, kept,
            batch.settle message result.toBool, calls ++ [Call.settled message result.toBool],
            getElem?_set_batch _ found, ?_,
            represents.settle present message_at begun stays ⟨call, resume, awaits⟩ goes⟩
          · show Option.bind (Option.bind _ _) _ = _
            rw [found, Option.bind_some, if_pos runs]
            rfl
          · rw [State.called, appended, List.append_assoc]

/-- At first nothing has been started. -/
theorem follows_first {programs : List (Async ω Unit)} (counted : programs.length = messages.length)
    (awaits : ∀ program ∈ programs, ∃ call resume, program.attempt = .await call resume)
    (taken : state.batches[position]? = some ⟨messages, messages, [], 0⟩) :
    Follows config messages position state
      (first (config.maxConcurrent messages) 0 (programs.map attempt)) state := by
  have fresh : ∀ item ∈ (first (config.maxConcurrent messages) 0 (programs.map attempt)).items,
      ∃ program ∈ programs, item = Item.fresh false program.attempt := by
    intro item member
    obtain ⟨index, bound, rfl⟩ := List.mem_mapIdx.mp member
    rw [List.length_map] at bound
    exact ⟨programs[index], List.getElem_mem bound, by simp⟩
  have none : ∀ {stage : Item ω (Except String Unit) → Bool},
      (∀ program ∈ programs, stage (Item.fresh false program.attempt) = false) →
        termsAt messages (first (config.maxConcurrent messages) 0 (programs.map attempt)) stage =
          [] := by
    intro stage out
    refine termsAt_eq_nil fun item member => ?_
    obtain ⟨program, listed, rfl⟩ := fresh item member
    exact out program listed
  have fulfils : ∀ program ∈ programs, fulfilled (Item.fresh false program.attempt) = false := by
    intro program listed
    obtain ⟨call, resume, same⟩ := awaits program listed
    rw [same]
    rfl
  have fails : ∀ program ∈ programs, failed (Item.fresh false program.attempt) = false := by
    intro program listed
    obtain ⟨call, resume, same⟩ := awaits program listed
    rw [same]
    rfl
  refine ⟨⟨rfl, by simp [first, counted], ?_, ?_⟩, ⟨messages, messages, [], 0⟩, [], taken,
    (List.append_nil _).symm, rfl, ?_, ?_, ?_, ?_⟩
  · intro item member
    obtain ⟨program, -, rfl⟩ := fresh item member
    exact contains_attempt program (makes_of_forall (fun _ _ => id) program)
  · intro item member _
    obtain ⟨program, listed, rfl⟩ := fresh item member
    exact awaits program listed
  · have all : termsAt messages (first (config.maxConcurrent messages) 0 (programs.map attempt))
        Item.waiting = messages := by
      have whole : ∀ pair ∈ messages.zip
          (first (config.maxConcurrent messages) 0 (programs.map attempt)).items,
          pair.2.waiting = true := by
        intro pair member
        obtain ⟨program, -, same⟩ := fresh pair.2 (List.of_mem_zip member).2
        rw [same]
        rfl
      rw [termsAt, List.filter_eq_self.mpr whole]
      exact List.map_fst_zip (by simp [first, counted])
    rw [all]
  · rw [@none Item.running fun _ _ => rfl]
  · rw [none fails]
    rfl
  · rw [outcomes, none fulfils, none fails]
    rfl

/-- At least one message is handled at a time. -/
theorem maxConcurrent_ne_zero (config : KafkaConfiguration) (nonempty : messages ≠ []) :
    config.maxConcurrent messages ≠ 0 := by
  rw [KafkaConfiguration.maxConcurrent]
  unfold KafkaConfiguration.enabledLimit
  split
  · exact Nat.succ_ne_zero 9
  · exact Nat.succ_ne_zero 9
  · exact Nat.succ_ne_zero _
  · exact mt List.eq_nil_of_length_eq_zero nonempty
  · exact mt List.eq_nil_of_length_eq_zero nonempty

/-- In the end each message has been fulfilled or has failed. -/
theorem fulfilled_add_failed {mapping : Mapping ω (Except String Unit)}
    (observing : Observing (config.maxConcurrent messages) messages.length mapping)
    (done : ∀ item ∈ mapping.items, item.done = true) :
    (termsAt messages mapping fulfilled).length + (termsAt messages mapping failed).length =
      messages.length := by
  have other : mapping.items.countP failed =
      mapping.items.countP fun item => decide (¬ fulfilled item = true) := by
    refine List.countP_congr fun item member => ?_
    obtain ⟨-, settles⟩ := Bool.and_eq_true_iff.mp (done item member)
    obtain ⟨outcome, settled⟩ := Item.settled_iff.mp settles
    have fulfils := observing.contained item member
    rw [settled] at fulfils
    obtain ⟨result, rfl⟩ := fulfils
    rw [failed, fulfilled, settled]
    cases result <;> simp
  rw [length_termsAt observing.counted, length_termsAt observing.counted, other,
    ← List.length_eq_countP_add_countP, observing.counted]

variable (config) in
/-- The calls that finish a batch: it is reported, some commits of its highest messages are
accepted, and the next messages are requested. -/
def finishCalls (messages : List TopicPartitionOffset) (fulfilled failed accepted : Nat) :
    List Call :=
  .batchProcessed messages.length fulfilled failed ::
    (if failed > 0 then [.batchFailure messages.length failed] else []) ++
    ((State.highestPerPartition messages).entries.take accepted).map
      (fun entry => .commitMessage entry.2) ++ [.consume config.getBatchSize]

/-- Once all its messages have settled, a batch can be finished, and it is reported how many of
them have been fulfilled. -/
theorem Follows.finish {mapping : Mapping ω (Except String Unit)}
    (follows : Follows config messages position start mapping state)
    (done : ∀ item ∈ mapping.items, item.done = true) (accepted : Nat) :
    ∃ last, (consuming config).step state (.finish position accepted) = some last ∧
      last.calls = state.calls ++ finishCalls config messages
        (termsAt messages mapping fulfilled).length (termsAt messages mapping failed).length
          accepted := by
  obtain ⟨observing, batch, calls, found, appended, represents⟩ := follows
  have waiting : batch.waiting = [] := by
    refine (represents.waiting.trans ?_).eq_nil
    rw [termsAt_eq_nil fun item member => ?_]
    rw [Item.waiting, (Bool.and_eq_true_iff.mp (done item member)).1]
    rfl
  have running : batch.running = [] := by
    refine (represents.running.trans ?_).eq_nil
    rw [termsAt_eq_nil fun item member => ?_]
    rw [Item.running, (Bool.and_eq_true_iff.mp (done item member)).2, Bool.not_true, Bool.and_false]
  have sizes := fulfilled_add_failed observing done
  have succeeded : messages.length - (termsAt messages mapping failed).length =
      (termsAt messages mapping fulfilled).length := by
    omega
  refine ⟨(({ state with batches := state.batches.eraseIdx position }.report batch).commitBatch
    accepted batch.messages).consume config, ?_, ?_⟩
  · show Option.bind _ _ = _
    rw [found, Option.bind_some, if_pos ⟨waiting, running⟩]
  · rw [State.consume, State.called, State.commitBatch, foldl_commit_spec, report_spec, finishCalls,
      reports, represents.own, represents.failures, succeeded]
    simp only [List.append_assoc, List.cons_append]

end Runs

/-- Whatever the order in which the messages of a batch are started, answered and settled, the
consume loop can start and settle them so that it comes as far as the mapping over them.  When
nothing more can happen, it finishes the batch, reports how many messages have been fulfilled and
how many have failed, commits the batch and goes on. -/
theorem processBatch_followed {η : Type} (setup : Batch.Setup η) (config : KafkaConfiguration)
    {batch : List KafkaMessage} (nonempty : batch ≠ []) {position : Nat} {state : State}
    (taken : state.batches[position]? =
      some ⟨batch.map KafkaMessage.toTopicPartitionOffset,
        batch.map KafkaMessage.toTopicPartitionOffset, [], 0⟩)
    {events : List (Mapping.Event (Batch.Call.Answer (η := η)))}
    {final : Mapping (Batch.Call.Answer (η := η)) (Except String Unit)}
    (execution : (Mapping.system _ _).run events (Batch.Kafka.processBatch setup config batch) =
      some final) :
    let messages := batch.map KafkaMessage.toTopicPartitionOffset
    ∃ turns last, (∀ turn ∈ turns, turn.Within position) ∧
      (consuming config).run turns state = some last ∧
        Follows config messages position state final last ∧
          (final.Finished → ∀ accepted, ∃ done,
            (consuming config).step last (.finish position accepted) = some done ∧
              done.calls = last.calls ++ finishCalls config messages
                (termsAt messages final fulfilled).length (termsAt messages final failed).length
                  accepted) := by
  intro messages
  have present : messages ≠ [] := mt List.map_eq_nil_iff.mp nonempty
  have limited := maxConcurrent_ne_zero config present
  have awaits : ∀ program ∈ batch.map (Batch.Kafka.receive setup),
      ∃ call resume, program.attempt = .await call resume := by
    intro program member
    obtain ⟨message, -, rfl⟩ := List.mem_map.mp member
    exact Batch.Kafka.receive_awaits setup message
  have contained : ∀ program ∈ (batch.map (Batch.Kafka.receive setup)).map attempt,
      program.Contains (fun _ _ => True) fun _ _ => False := by
    intro program member
    obtain ⟨inner, -, rfl⟩ := List.mem_map.mp member
    exact contains_attempt inner (makes_of_forall (fun _ _ => id) inner)
  obtain ⟨starts, begun⟩ := begin_reached limited contained
  have whole : (Mapping.system _ _).run (starts ++ events)
      (first (config.maxConcurrent messages) 0 ((batch.map (Batch.Kafka.receive setup)).map
        attempt)) = some final := by
    rw [System.run_append, begun, Option.bind_some]
    exact execution
  obtain ⟨turns, last, within, runs, follows⟩ : ∃ turns last, (∀ turn ∈ turns,
      turn.Within position) ∧ (consuming config).run turns state = some last ∧
        Follows config messages position state final last :=
    System.run_matched (fun _ _ _ _ follows stepped => follows.step stepped) whole
      (follows_first (by simp [messages]) awaits taken)
  refine ⟨turns, last, within, runs, follows, fun finished accepted => ?_⟩
  exact follows.finish (observed_done (Batch.granting false) limited execution finished) accepted

/-- A message for which there is no task, and one whose value does not parse. -/
def mixedBatch : List KafkaMessage := [⟨order 0, some (.obj [])⟩, ⟨order 1, none⟩]

/-- The second message settles first. -/
def mixedReplies : List (Mapping.Event (Batch.Call.Answer (η := Unit))) :=
  [.reply 1 (Batch.granting false), .reply 0 (Batch.granting false)]

/-- A runner that has just been handed the two messages. -/
def mixedState : State :=
  { State.started {} with batches := [⟨[order 0, order 1], [order 0, order 1], [], 0⟩] }

theorem mixed_observed :
    ((Mapping.system _ _).run mixedReplies
        (Batch.Kafka.processBatch Batch.vacant {} mixedBatch)).map (fun final =>
      let messages := mixedBatch.map KafkaMessage.toTopicPartitionOffset
      ((termsAt messages final fulfilled).length, (termsAt messages final failed).length)) =
      some (1, 1) := rfl

/-- The batch is reported with one message that has been fulfilled and one that has failed. -/
theorem mixedBatch_followed : ∃ final last done,
    (Mapping.system _ _).run mixedReplies (Batch.Kafka.processBatch Batch.vacant {} mixedBatch) =
      some final ∧
    (consuming {}).step last (.finish 0 1) = some done ∧
      done.calls = last.calls ++ [.batchProcessed 2 1 1, .batchFailure 2 1,
        .commitMessage (order 1), .consume (KafkaConfiguration.getBatchSize {})] := by
  obtain ⟨final, execution, finished⟩ : ∃ final,
      (Mapping.system _ _).run mixedReplies
        (Batch.Kafka.processBatch Batch.vacant {} mixedBatch) = some final ∧ final.Finished := by
    refine ⟨_, rfl, fun event => ?_⟩
    cases event with
    | start index => rcases index with _ | _ | index <;> rfl
    | reply index environment => rcases index with _ | _ | index <;> rfl
  have taken : mixedState.batches[0]? = some ⟨[order 0, order 1], [order 0, order 1], [], 0⟩ := rfl
  obtain ⟨turns, last, -, -, follows, finishes⟩ := processBatch_followed Batch.vacant {}
    (by simp [mixedBatch]) taken execution
  obtain ⟨done, stepped, reported⟩ := finishes finished 1
  have observed := mixed_observed
  rw [execution] at observed
  obtain ⟨one, other⟩ := Prod.mk.inj (Option.some.inj observed)
  rw [one, other] at reported
  exact ⟨final, last, done, execution, stepped, reported⟩

end KafkaRunner

end Steveo
