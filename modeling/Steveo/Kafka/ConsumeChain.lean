import Steveo.Kafka.Runner
import Steveo.Library.Log
import Steveo.Runtime.Registry

/-!
# The consume chain of the Kafka runner

Every answer to a consume request leads to the next request, so one request keeps a chain going.
`process` begins a chain whenever the client is ready, which it is after every successful connect.
This file models the connection of a runner and says when there is a single chain.
-/

namespace Steveo

namespace KafkaRunner

variable {η : Type}

/-- A runner whose constructor has returned. -/
def State.constructed : State where
  manager := .running
  processedOffsets := .empty
  requests := 0
  sleeping := 0
  batches := []
  calls := []

/-- A runner for which `process` has been called, and its client. -/
structure Session where
  runner : State
  consumerReady : Bool
  /-- Calls of `disconnect` by `reconnect` that the client has not answered. -/
  disconnecting : Nat
  /-- Calls of `connect` that the client has not answered. -/
  connecting : Nat
  subscriptions : List (List String)

/-- The call of `process` connects the client and listens for its events. -/
def Session.process : Session where
  runner := .constructed
  consumerReady := false
  disconnecting := 0
  connecting := 1
  subscriptions := []

/-- The topics of a runner for which the registry finds something; no topics means every topic of
the registry. -/
def getTopicsWithTasks (registry : Registry η) (topics : Option (List String)) : List String :=
  (topics.getD registry.getTaskTopics).filter fun topic => (registry.getTask topic).isSome

/-- The listener for the event that the client is ready. -/
def Session.ready (config : KafkaConfiguration) (topics : Option (List String))
    (registry : Registry η) (session : Session) : Session :=
  let topicsWithTasks := getTopicsWithTasks registry topics
  if topicsWithTasks.isEmpty then
    { session with consumerReady := true }
  else
    { session with
      consumerReady := true
      subscriptions := session.subscriptions ++ [topicsWithTasks]
      runner := session.runner.consume config }

/-- What can happen to a runner and its client. -/
inductive SessionEvent (η : Type)
  | reconnect
  | disconnected
  /-- A connect succeeds; the registry is the one at that time. -/
  | connected (registry : Registry η)
  | connectFailed
  /-- The client reports an error, which is logged. -/
  | eventError
  | turn (event : Event)

namespace Session

/-- The next state, if the event can happen. -/
def step (config : KafkaConfiguration) (topics : Option (List String)) (session : Session) :
    SessionEvent η → Option Session
  | .reconnect =>
      some { session with
        disconnecting := session.disconnecting + 1, runner := session.runner.called .disconnect }
  | .disconnected =>
      if 0 < session.disconnecting then
        some { session with
          disconnecting := session.disconnecting - 1, connecting := session.connecting + 1 }
      else
        none
  | .connected registry =>
      if 0 < session.connecting then
        some ({ session with connecting := session.connecting - 1 }.ready config topics registry)
      else
        none
  | .connectFailed =>
      if 0 < session.connecting then
        some { session with connecting := session.connecting - 1 }
      else
        none
  | .eventError => some session
  | .turn event =>
      (KafkaRunner.step config session.runner event).map fun runner =>
        { session with runner := runner }

/-- A runner that processes some topics. -/
def system (η : Type) (config : KafkaConfiguration) (topics : Option (List String)) :
    System Session (SessionEvent η) := ⟨step config topics⟩

end Session

/-! ## Commits in the order of consumption -/

/-- Whether a call hands over messages. -/
def Call.hands : Call → Bool
  | .handed _ => true
  | _ => false

/-- Whether a call neither hands over messages nor commits one. -/
def Call.quiet : Call → Bool
  | .handed _ | .commitMessage _ => false
  | _ => true

/-- A message is among those handed over last. -/
def Latest (calls : List Call) (message : TopicPartitionOffset) : Prop :=
  ∃ earlier messages later, calls = earlier ++ .handed messages :: later ∧
    (∀ call ∈ later, call.hands = false) ∧ message ∈ messages

/-- A message is committed before the next ones are handed over. -/
def CommitsLatest (earlier : List Call) : Call → Prop
  | .commitMessage message => Latest earlier message
  | _ => True

/-- There is a single consume chain, and batches are committed in the order in which they were
consumed. -/
def Chained (session : Session) : Prop :=
  session.runner.outstanding ≤ 1 ∧ Guarded CommitsLatest session.runner.calls

/-- A batch in progress consists of messages handed over last. -/
structure Logged (state : State) : Prop where
  latest : ∀ batch ∈ state.batches, ∀ message ∈ batch.messages, Latest state.calls message
  ordered : Guarded CommitsLatest state.calls

theorem Latest.append {calls added : List Call} {message : TopicPartitionOffset}
    (latest : Latest calls message) (silent : ∀ call ∈ added, call.hands = false) :
    Latest (calls ++ added) message := by
  obtain ⟨earlier, messages, later, rfl, after, member⟩ := latest
  refine ⟨earlier, messages, later ++ added, by simp, fun call called => ?_, member⟩
  rcases List.mem_append.mp called with called | called
  · exact after call called
  · exact silent call called

theorem hands_of_quiet {call : Call} (quiet : call.quiet = true) : call.hands = false := by
  cases call <;> first | rfl | contradiction

theorem commitsLatest_of_quiet {call : Call} (quiet : call.quiet = true) (earlier : List Call) :
    CommitsLatest earlier call := by
  cases call <;> trivial

namespace Logged

variable {config : KafkaConfiguration} {before after : State}

/-- Quiet calls change nothing as long as no batch is begun. -/
theorem quiet (logged : Logged before) (added : List Call)
    (quiet : ∀ call ∈ added, call.quiet = true) (calls : after.calls = before.calls ++ added)
    (batches : ∀ batch ∈ after.batches, ∃ old ∈ before.batches, batch.messages = old.messages) :
    Logged after := by
  constructor
  · intro batch member message own
    obtain ⟨old, present, same⟩ := batches batch member
    rw [calls]
    exact (logged.latest old present message (same ▸ own)).append
      fun call called => hands_of_quiet (quiet call called)
  · rw [calls, guarded_append]
    exact ⟨logged.ordered, guarded_of_forall fun earlier _ call called =>
      commitsLatest_of_quiet (quiet call called) _⟩

/-- Quiet calls change nothing as long as the batches stay. -/
theorem same (logged : Logged before) (added : List Call)
    (quiet : ∀ call ∈ added, call.quiet = true) (calls : after.calls = before.calls ++ added)
    (batches : after.batches = before.batches) : Logged after :=
  logged.quiet added quiet calls fun batch member => ⟨batch, batches ▸ member, rfl⟩

/-- The messages of a batch in progress may be committed. -/
theorem commits (logged : Logged before) {entries : List (String × TopicPartitionOffset)}
    (latest : ∀ entry ∈ entries, Latest before.calls entry.2) :
    Logged (entries.foldl State.commit before) := by
  have silent : ∀ call ∈ entries.map fun entry => Call.commitMessage entry.2,
      call.hands = false := by
    intro call called
    obtain ⟨entry, -, rfl⟩ := List.mem_map.mp called
    rfl
  rw [foldl_commit_spec]
  constructor
  · exact fun batch member message own => (logged.latest batch member message own).append silent
  · refine guarded_append.mpr
      ⟨logged.ordered, guarded_of_forall fun earlier within call called => ?_⟩
    obtain ⟨entry, member, rfl⟩ := List.mem_map.mp called
    exact (latest entry member).append fun call called => silent call (within called)

/-- A consume request that is answered hands over messages, of which a batch is made. -/
theorem consumeCallback (logged : Logged before) (idle : before.batches = []) (error : Bool)
    (messages : List TopicPartitionOffset) :
    Logged ((before.called (.handed messages)).consumeCallback config error messages) := by
  have handed : Logged (before.called (.handed messages)) := by
    constructor
    · intro batch member
      rw [State.called, idle] at member
      cases member
    · refine guarded_append.mpr ⟨logged.ordered, ?_⟩
      exact guarded_cons.mpr ⟨trivial, guarded_nil _⟩
  rw [State.consumeCallback]
  split
  · exact handed.same [.disconnect] (by simp [Call.quiet]) rfl rfl
  · split
    · exact handed.same [] (by simp) (by simp) rfl
    · split
      · exact handed.same [.connectionFailure, .consume config.getBatchSize]
          (by simp [Call.quiet]) (by simp [State.consume, State.called]) rfl
      · split
        · exact handed.same [.consume config.getBatchSize] (by simp [Call.quiet]) rfl rfl
        · refine ⟨fun batch member message own => ?_, handed.ordered⟩
          rw [State.processBatch, State.called, idle, List.nil_append] at member
          obtain rfl := List.mem_singleton.mp member
          exact ⟨before.calls, messages, [], rfl, by simp, List.mem_of_mem_take own⟩

/-- A finished batch commits messages of its own. -/
theorem finish (logged : Logged before) {index : Nat} {batch : Batch}
    (found : before.batches[index]? = some batch) (accepted : Nat) :
    Logged ((({ before with batches := before.batches.eraseIdx index }.report batch).commitBatch
      accepted batch.messages).consume config) := by
  have quiet_reports : ∀ call ∈ reports batch, call.quiet = true := by
    rw [reports]
    split <;> simp [Call.quiet]
  have reported : Logged
      ({ before with batches := before.batches.eraseIdx index }.report batch) := by
    rw [report_spec]
    refine logged.quiet _ quiet_reports rfl fun other member => ?_
    exact ⟨other, List.mem_of_mem_eraseIdx member, rfl⟩
  have latest : ∀ entry ∈ (State.highestPerPartition batch.messages).entries.take accepted,
      Latest ({ before with batches := before.batches.eraseIdx index }.report batch).calls
        entry.2 := by
    intro entry member
    have own := (mem_highestPerPartition (List.mem_of_mem_take member)).1
    rw [report_spec]
    exact (logged.latest batch (List.mem_of_getElem? found) entry.2 own).append
      fun call called => hands_of_quiet (quiet_reports call called)
  have committed : Logged (({ before with batches := before.batches.eraseIdx index }.report
      batch).commitBatch accepted batch.messages) := reported.commits latest
  exact committed.same [.consume config.getBatchSize] (by simp [Call.quiet]) rfl rfl

/-- As long as there is a single chain, batches are committed in the order of consumption. -/
theorem step (logged : Logged before) (single : before.outstanding ≤ 1) {event : Event}
    (stepped : KafkaRunner.step config before event = some after) : Logged after := by
  cases event with
  | callback error messages =>
      obtain ⟨requested, -, rfl⟩ := step_callback stepped
      have asked : Logged { before with requests := before.requests - 1 } :=
        ⟨logged.latest, logged.ordered⟩
      exact asked.consumeCallback (requested_only single requested).2.2 error messages
  | wake =>
      obtain ⟨-, rfl⟩ := step_wake stepped
      exact logged.same [.consume config.getBatchSize] (by simp [Call.quiet]) rfl rfl
  | start index message =>
      obtain ⟨batch, found, -, rfl⟩ := step_start stepped
      refine logged.quiet [] (by simp) (by simp) fun other member => ?_
      rcases List.mem_or_eq_of_mem_set member with member | rfl
      · exact ⟨other, member, rfl⟩
      · exact ⟨batch, List.mem_of_getElem? found, rfl⟩
  | settle index message fulfilled =>
      obtain ⟨batch, found, -, rfl⟩ := step_settle stepped
      refine logged.quiet [.settled message fulfilled] (by simp [Call.quiet]) rfl
        fun other member => ?_
      rcases List.mem_or_eq_of_mem_set member with member | rfl
      · exact ⟨other, member, rfl⟩
      · exact ⟨batch, List.mem_of_getElem? found, rfl⟩
  | finish index accepted =>
      obtain ⟨batch, found, -, -, rfl⟩ := step_finish stepped
      exact logged.finish found accepted
  | revoke =>
      obtain rfl := Option.some.inj stepped
      rw [State.flushOffsets]
      split
      · exact logged
      · exact logged.same [.commitSync before.processedOffsets.values] (by simp [Call.quiet]) rfl
          rfl
  | pause | resume =>
      obtain rfl := Option.some.inj stepped
      exact ⟨logged.latest, logged.ordered⟩
  | stop =>
      obtain rfl := Option.some.inj stepped
      split
      · exact logged
      · exact ⟨logged.latest, logged.ordered⟩

end Logged

/-! ## A single chain -/

namespace Session

variable {config : KafkaConfiguration} {topics : Option (List String)} {before after : Session}

/-- A connect succeeds only while nothing is outstanding, unless the runner has no topics. -/
def Alone (topics : Option (List String)) (session : Session) : SessionEvent η → Prop
  | .connected registry =>
      getTopicsWithTasks registry topics = [] ∨ session.runner.outstanding = 0
  | _ => True

/-- What holds as long as there is a single chain. -/
structure Single (session : Session) : Prop where
  outstanding : session.runner.outstanding ≤ 1
  logged : Logged session.runner

/-- The listener asks for messages if the runner has topics. -/
theorem runner_ready (config : KafkaConfiguration) (topics : Option (List String))
    (registry : Registry η) (session : Session) :
    (session.ready config topics registry).runner =
      if getTopicsWithTasks registry topics = [] then session.runner
      else session.runner.consume config := by
  simp only [ready, List.isEmpty_iff]
  split <;> rfl

theorem outstanding_consume (state : State) :
    (state.consume config).outstanding = state.outstanding + 1 := by
  simp only [State.outstanding, State.consume, State.called]
  omega

/-- A runner that asks for messages while nothing is outstanding has a single chain. -/
theorem Single.ready (single : Single before) {registry : Registry η}
    (alone : getTopicsWithTasks registry topics = [] ∨ before.runner.outstanding = 0) :
    Single (before.ready config topics registry) := by
  have asked := runner_ready config topics registry before
  split at asked
  · exact ⟨asked ▸ single.outstanding, asked ▸ single.logged⟩
  · rename_i topical
    have idle := alone.resolve_left topical
    constructor
    · rw [asked, outstanding_consume, idle]
    · rw [asked]
      exact single.logged.same [.consume config.getBatchSize] (by simp [Call.quiet]) rfl rfl

theorem single_step {event : SessionEvent η} (single : Single before)
    (alone : Alone topics before event)
    (stepped : (system η config topics).step before event = some after) : Single after := by
  cases event with
  | reconnect =>
      obtain rfl := Option.some.inj stepped
      exact ⟨single.outstanding,
        single.logged.same [.disconnect] (by simp [Call.quiet]) rfl rfl⟩
  | disconnected =>
      simp only [system, step, Option.ite_none_right_eq_some, Option.some.injEq] at stepped
      obtain ⟨-, rfl⟩ := stepped
      exact ⟨single.outstanding, single.logged⟩
  | connected registry =>
      simp only [system, step, Option.ite_none_right_eq_some, Option.some.injEq] at stepped
      obtain ⟨-, rfl⟩ := stepped
      have answered : Single { before with connecting := before.connecting - 1 } :=
        ⟨single.outstanding, single.logged⟩
      exact answered.ready alone
  | connectFailed =>
      simp only [system, step, Option.ite_none_right_eq_some, Option.some.injEq] at stepped
      obtain ⟨-, rfl⟩ := stepped
      exact ⟨single.outstanding, single.logged⟩
  | eventError =>
      obtain rfl := Option.some.inj stepped
      exact single
  | turn event =>
      obtain ⟨runner, turned, rfl⟩ := Option.map_eq_some_iff.mp stepped
      exact ⟨(outstanding_step turned).trans single.outstanding,
        single.logged.step single.outstanding turned⟩

/-- A connect that succeeds while something is outstanding begins a second chain. -/
theorem alone_of_chained {event : SessionEvent η}
    (stepped : (system η config topics).step before event = some after) (chained : Chained after) :
    Alone topics before event := by
  cases event with
  | connected registry =>
      simp only [system, step, Option.ite_none_right_eq_some, Option.some.injEq] at stepped
      obtain ⟨-, rfl⟩ := stepped
      refine or_iff_not_imp_left.mpr fun topical => ?_
      have single := chained.1
      rw [runner_ready, if_neg topical, outstanding_consume] at single
      exact Nat.le_zero.mp (Nat.le_of_succ_le_succ single)
  | reconnect | disconnected | connectFailed | eventError | turn _ => trivial

theorem single_process : Single .process where
  outstanding := Nat.zero_le 1
  logged :=
    { latest := fun batch member => by cases member
      ordered := guarded_nil _ }

/-- There is a single consume chain throughout a run exactly if every successful connect, after
which a runner with topics asks for messages, finds nothing outstanding. -/
theorem chained_iff (η : Type) (config : KafkaConfiguration) (topics : Option (List String))
    {events : List (SessionEvent η)} {final : Session}
    (execution : (system η config topics).run events .process = some final) :
    (system η config topics).Throughout Chained events .process ↔
      (system η config topics).Along (Alone topics) events .process :=
  System.throughout_iff_along (fun _ single => ⟨single.outstanding, single.logged.ordered⟩)
    (fun _ _ _ single alone stepped => single_step single alone stepped)
    (fun _ _ _ _ stepped chained => alone_of_chained stepped chained) single_process execution

instance decidableAlone (topics : Option (List String)) (session : Session) :
    ∀ event : SessionEvent η, Decidable (Alone topics session event)
  | .connected registry =>
      inferInstanceAs (Decidable (getTopicsWithTasks registry topics = [] ∨
        session.runner.outstanding = 0))
  | .reconnect | .disconnected | .connectFailed | .eventError | .turn _ => isTrue trivial

/-- A registry with a task for orders. -/
def orders : Registry Unit :=
  Registry.empty.addNewTask { name := "orders", topic := "orders", subscribe := () }

/-- A batch fails, and the chain goes on while the client fails to connect again. -/
def failedReconnect : List (SessionEvent Unit) :=
  [.connected orders, .turn (.callback false [order 0]), .turn (.start 0 (order 0)), .reconnect,
    .turn (.settle 0 (order 0) false), .disconnected, .turn (.finish 0 1), .connectFailed]

theorem failedReconnect_chained :
    (system Unit {} none).Throughout Chained failedReconnect .process := by
  have execution : ((system Unit {} none).run failedReconnect .process).isSome = true := by decide
  obtain ⟨final, execution⟩ := Option.isSome_iff_exists.mp execution
  exact (chained_iff Unit {} none execution).mpr (by decide)

/-- The client connects, is asked for messages, and is connected again. -/
def reconnected : List (SessionEvent Unit) :=
  [.connected orders, .reconnect, .disconnected, .connected orders]

/-- After a reconnect the client is asked for messages twice. -/
theorem reconnected_twice : ¬ ∀ events final,
    (system Unit {} none).run events .process = some final →
      (system Unit {} none).Throughout Chained events .process := by
  intro chained
  have requests : ((system Unit {} none).run reconnected .process).map
      (fun session => session.runner.outstanding) = some 2 := by decide
  obtain ⟨final, execution, twice⟩ := Option.map_eq_some_iff.mp requests
  have single := ((chained reconnected final execution).run execution).1
  rw [twice] at single
  exact absurd single (by decide)

end Session

end KafkaRunner

end Steveo
