import Steveo.Messaging.Stopping
import Steveo.Runtime.Configuration

/-!
# Deleting a message after it has been handled

A task or the configuration of an instance can ask the SQS runner to delete a message only after
its handler has resolved.  The flag of the configuration has to pass through `getConfig` to reach
the runner.
-/

namespace Steveo

namespace Polling

variable {η : Type} {setup : Setup η}

/-- The runner of an instance that keeps the given configuration. -/
def Setup.ofConfig (environment : Environment) (arrival : Arrival) (registry : Registry η)
    (kept : Fields) : Setup η where
  registry := registry
  waitToCommit := kept.get "waitToCommit"
  hasMiddleware :=
    match kept.get "middleware" with
    | some (.arr (_ :: _)) => true
    | _ => false
  concurrency :=
    (safeParseInt environment
      (Configuration.orElse (Configuration.optional (kept.get "workerConfig") "max") (.num 1))
      1).toNat
  arrival := arrival

/-- Messages of a topic are deleted after their handlers have resolved, and never where the handler
has failed. -/
structure DeletedAfterHandling (topic : String) (state : State) : Prop where
  deleted : ∀ id handling, state.handlings[id]? = some handling → handling.topic = topic →
    Guarded (fun earlier notice => notice = .deed id .delete → .deed id .resolved ∈ earlier)
      state.log
  failed : ∀ id handling, state.handlings[id]? = some handling → handling.topic = topic →
    .deed id .failed ∈ state.log → .deed id .delete ∉ state.log

/-- In every state that the runner reaches, messages of a topic are deleted after handling. -/
def DeletesAfterHandling (setup : Setup η) (topic : String) : Prop :=
  ∀ events final, (system setup).run events .initial = some final →
    DeletedAfterHandling topic final

/-- Whether the handler of a message has settled. -/
def Stage.settled : Stage → Bool
  | .deletingLast | .releasing | .done | .rejected => true
  | .wrapped | .acquiring | .deletingFirst | .subscribed => false

/-- The deeds of a handling so far, and what its stage says about them. -/
structure Kept (id : Nat) (handling : Handling) (log : List Notice) : Prop where
  deleted : Guarded
    (fun earlier notice => notice = .deed id .delete → .deed id .resolved ∈ earlier) log
  failed : .deed id .failed ∈ log → .deed id .resolved ∉ log
  pending : handling.stage.settled = false → .deed id .resolved ∉ log ∧ .deed id .failed ∉ log

/-- What a handling that waits to commit does when it is answered. -/
theorem answer_of_waits {handling : Handling} {fulfilled : Bool} {next : Stage × List Deed}
    (waits : setup.waitsToCommit handling.topic = true)
    (answers : handling.answer setup fulfilled = some next) :
    (next.2 ⊆ [.subscribe] ∧ (next.1.settled = false → handling.stage.settled = false)) ∨
      (handling.stage.settled = false ∧ next = (.deletingLast, .resolved :: handling.deletion)) ∨
      (handling.stage.settled = false ∧ next = (.releasing, [.failed])) := by
  have subscribes : (handling.subscribe setup).2 ⊆ [.subscribe] := by
    rw [Handling.subscribe]
    split <;> simp
  cases stage : handling.stage with
  | wrapped | done | rejected => simp [Handling.answer, stage] at answers
  | acquiring =>
      left
      refine ⟨?_, fun _ => rfl⟩
      cases fulfilled with
      | true =>
          simp only [Handling.answer, stage, Option.some.injEq] at answers
          subst answers
          rw [Handling.acquired]
          split
          · simp
          · split
            · simp
            · simpa only [waits, if_true] using subscribes
      | false =>
          simp only [Handling.answer, stage, Option.some.injEq] at answers
          subst answers
          simp
  | deletingFirst =>
      left
      refine ⟨?_, fun _ => rfl⟩
      cases fulfilled with
      | true =>
          simp only [Handling.answer, stage, Option.some.injEq] at answers
          exact answers ▸ subscribes
      | false =>
          simp only [Handling.answer, stage, Option.ite_none_right_eq_some, Option.some.injEq]
            at answers
          simp [← answers.2]
  | subscribed =>
      right
      cases fulfilled with
      | true =>
          simp only [Handling.answer, stage, if_pos waits, Option.some.injEq] at answers
          exact Or.inl ⟨rfl, answers.symm⟩
      | false =>
          simp only [Handling.answer, stage, Option.some.injEq] at answers
          exact Or.inr ⟨rfl, answers.symm⟩
  | deletingLast =>
      left
      cases fulfilled with
      | true =>
          simp only [Handling.answer, stage, Option.some.injEq] at answers
          simp [← answers, Stage.settled]
      | false =>
          simp only [Handling.answer, stage, Option.ite_none_right_eq_some, Option.some.injEq]
            at answers
          simp [← answers.2, Stage.settled]
  | releasing =>
      left
      cases fulfilled with
      | true =>
          simp only [Handling.answer, stage, Option.some.injEq] at answers
          simp [← answers, Stage.settled]
      | false =>
          simp only [Handling.answer, stage, Option.some.injEq] at answers
          simp [← answers, Stage.settled]

/-- The deeds of another handling say nothing about this one. -/
theorem Kept.other {id other : Nat} {handling : Handling} {log : List Notice}
    (kept : Kept id handling log) (different : other ≠ id) (deeds : List Deed) :
    Kept id handling (log ++ deeds.map (Notice.deed other)) := by
  have absent : ∀ deed, .deed id deed ∉ deeds.map (Notice.deed other) := by
    intro deed member
    obtain ⟨_, -, same⟩ := List.mem_map.mp member
    exact different (Notice.deed.inj same).1
  refine ⟨guarded_append.mpr ⟨kept.deleted, guarded_of_forall ?_⟩, ?_, ?_⟩
  · rintro earlier - notice member rfl
    exact absurd member (absent _)
  · simpa [absent] using kept.failed
  · simpa [absent] using kept.pending

theorem Kept.answered {id : Nat} {handling : Handling} {fulfilled : Bool} {log : List Notice}
    {next : Stage × List Deed} (kept : Kept id handling log)
    (waits : setup.waitsToCommit handling.topic = true)
    (answers : handling.answer setup fulfilled = some next) :
    Kept id { handling with stage := next.1 } (log ++ next.2.map (Notice.deed id)) := by
  rcases answer_of_waits waits answers with ⟨quiet, settles⟩ | ⟨unsettled, rfl⟩ | ⟨unsettled, rfl⟩
  · have absent : ∀ deed, deed ≠ .subscribe → .deed id deed ∉ next.2.map (Notice.deed id) := by
      intro deed other member
      obtain ⟨done, present, same⟩ := List.mem_map.mp member
      obtain ⟨-, rfl⟩ := Notice.deed.inj same
      exact other (List.mem_singleton.mp (quiet present))
    refine ⟨guarded_append.mpr ⟨kept.deleted, guarded_of_forall ?_⟩, ?_, fun unsettled => ?_⟩
    · rintro earlier - notice member rfl
      exact absurd member (absent _ (by simp))
    · simpa [absent] using kept.failed
    · simpa [absent] using kept.pending (settles unsettled)
  · obtain ⟨unresolved, unfailed⟩ := kept.pending unsettled
    refine ⟨guarded_append.mpr ⟨kept.deleted, ?_⟩, ?_, fun unsettled => by contradiction⟩
    · rw [List.map_cons, guarded_cons]
      refine ⟨by simp, guarded_of_forall fun earlier _ notice _ _ => by simp⟩
    · rw [Handling.deletion]
      split <;> simp [unfailed]
  · obtain ⟨unresolved, unfailed⟩ := kept.pending unsettled
    refine ⟨guarded_append.mpr ⟨kept.deleted, by simp [guarded_nil]⟩, ?_,
      fun unsettled => by contradiction⟩
    simp [unresolved]

/-- A message has deeds only if it parses and has reached the runner, and every handling whose
message waits for its handler has kept its deeds in order. -/
structure Orderly (setup : Setup η) (state : State) : Prop where
  unread : ∀ handling ∈ state.handlings, handling.message.body = none → handling.stage = .rejected
  reached : ∀ id deed, .deed id deed ∈ state.log → ∃ handling : Handling,
    state.handlings[id]? = some handling ∧ handling.stage ≠ .wrapped ∧
      handling.message.body ≠ none
  kept : ∀ id handling, state.handlings[id]? = some handling →
    setup.waitsToCommit handling.topic = true → Kept id handling state.log

theorem Kept.stop {id : Nat} {handling : Handling} {log : List Notice}
    (kept : Kept id handling log) : Kept id handling (log ++ [.stop]) := by
  refine ⟨guarded_append.mpr ⟨kept.deleted, by simp [guarded_nil]⟩, ?_, ?_⟩
  · simpa using kept.failed
  · simpa using kept.pending

/-- A handling without deeds has kept them in order. -/
theorem Kept.of_untouched {id : Nat} {handling : Handling} {log : List Notice}
    (untouched : ∀ deed, .deed id deed ∉ log) : Kept id handling log := by
  refine ⟨guarded_of_forall ?_, fun _ => untouched _, fun _ => ⟨untouched _, untouched _⟩⟩
  rintro earlier - notice member rfl
  exact absurd member (untouched _)

/-- No handling returns to the middleware. -/
theorem answer_ne_wrapped {handling : Handling} {fulfilled : Bool} {next : Stage × List Deed}
    (answers : handling.answer setup fulfilled = some next) : next.1 ≠ .wrapped := by
  have subscribes : (handling.subscribe setup).1 ≠ .wrapped := by
    rw [Handling.subscribe]
    split <;> exact Stage.noConfusion
  have acquires : (handling.acquired setup).1 ≠ .wrapped := by
    rw [Handling.acquired]
    split
    · exact Stage.noConfusion
    · split
      · exact Stage.noConfusion
      · split
        · exact subscribes
        · exact Stage.noConfusion
  unfold Handling.answer at answers
  split at answers <;> grind

section Steps

variable {before after : State}

/-- A handling that has not reached the runner has no deeds. -/
theorem Orderly.untouched (orderly : Orderly setup before) {id : Nat} {handling : Handling}
    (found : before.handlings[id]? = some handling) (wrapped : handling.stage = .wrapped)
    (deed : Deed) : .deed id deed ∉ before.log := by
  intro member
  obtain ⟨other, present, reached, -⟩ := orderly.reached id deed member
  obtain rfl := Option.some.inj (found.symm.trans present)
  exact reached wrapped

theorem Orderly.taken (orderly : Orderly setup before) {handling : Handling}
    (entered : handling.stage = entrance setup before.manager handling.message)
    (handlings : after.handlings = before.handlings ++ [handling]) (log : after.log = before.log) :
    Orderly setup after := by
  refine ⟨fun other member unread => ?_, fun id deed member => ?_, fun id other found waits => ?_⟩
  · rcases List.mem_append.mp (handlings ▸ member) with known | new
    · exact orderly.unread other known unread
    · obtain rfl := List.mem_singleton.mp new
      rw [entered, entrance, unread]
  · obtain ⟨known, found, reached⟩ := orderly.reached id deed (log ▸ member)
    refine ⟨known, ?_, reached⟩
    rw [handlings, List.getElem?_append_left (List.getElem?_eq_some_iff.mp found).1, found]
  · rw [handlings] at found
    rw [log]
    by_cases known : id < before.handlings.length
    · rw [List.getElem?_append_left known] at found
      exact orderly.kept id other found waits
    · refine .of_untouched fun deed member => known ?_
      obtain ⟨_, present, -⟩ := orderly.reached id deed member
      exact (List.getElem?_eq_some_iff.mp present).1

theorem Orderly.begun (orderly : Orderly setup before) {id : Nat} {handling : Handling}
    (found : before.handlings[id]? = some handling) (wrapped : handling.stage = .wrapped)
    (topic : String) (payload : Json) :
    Orderly setup (beginMessage before id handling topic payload) := by
  have untouched := orderly.untouched found wrapped
  refine ⟨fun other member unread => ?_, fun other deed member => ?_,
    fun other later present waits => ?_⟩
  · rcases List.mem_or_eq_of_mem_set member with known | rfl
    · exact orderly.unread other known unread
    · cases wrapped.symm.trans (orderly.unread handling (List.mem_of_getElem? found) unread)
  · have apart : id ≠ other := by
      rintro rfl
      exact untouched deed member
    obtain ⟨known, present, reached⟩ := orderly.reached other deed member
    exact ⟨known, (List.getElem?_set_ne apart).trans present, reached⟩
  · by_cases same : id = other
    · exact same ▸ .of_untouched untouched
    · exact orderly.kept other later ((List.getElem?_set_ne same).symm.trans present) waits

theorem Orderly.answered (orderly : Orderly setup before) {id : Nat} {fulfilled : Bool}
    {handling : Handling} {next : Stage × List Deed}
    (found : before.handlings[id]? = some handling)
    (answers : handling.answer setup fulfilled = some next) :
    Orderly setup (before.moveOn id handling next) := by
  have placed : (before.moveOn id handling next).handlings[id]? =
      some { handling with stage := next.1 } :=
    List.getElem?_set_self (List.getElem?_eq_some_iff.mp found).1
  have read : handling.message.body ≠ none := by
    intro unread
    have rejected := orderly.unread handling (List.mem_of_getElem? found) unread
    simp [Handling.answer, rejected] at answers
  refine ⟨fun other member unread => ?_, fun other deed member => ?_,
    fun other later present waits => ?_⟩
  · rcases List.mem_or_eq_of_mem_set member with known | rfl
    · exact orderly.unread other known unread
    · exact absurd unread read
  · by_cases same : id = other
    · subst same
      exact ⟨_, placed, answer_ne_wrapped answers, read⟩
    · have earlier : .deed other deed ∈ before.log := by
        refine (List.mem_append.mp member).resolve_right fun new => ?_
        obtain ⟨_, -, own⟩ := List.mem_map.mp new
        exact same (Notice.deed.inj own).1
      obtain ⟨known, present, reached⟩ := orderly.reached other deed earlier
      exact ⟨known, (List.getElem?_set_ne same).trans present, reached⟩
  · by_cases same : id = other
    · subst same
      obtain rfl := Option.some.inj (placed.symm.trans present)
      exact (orderly.kept id handling found waits).answered waits answers
    · rw [State.moveOn, List.getElem?_set_ne same] at present
      exact (orderly.kept other later present waits).other same next.2

theorem orderly_step {event : Event} (orderly : Orderly setup before)
    (stepped : step setup before event = some after) : Orderly setup after := by
  cases step_effect stepped with
  | stop =>
      refine ⟨orderly.unread, fun id deed member => ?_, fun id handling found waits => ?_⟩
      · exact orderly.reached id deed (by simpa using member)
      · exact (orderly.kept id handling found waits).stop
  | pause | resume => exact ⟨orderly.unread, orderly.reached, orderly.kept⟩
  | quiet manager handlings log =>
      refine ⟨?_, ?_, ?_⟩
      · rw [handlings]
        exact orderly.unread
      · rw [log, handlings]
        exact orderly.reached
      · rw [log, handlings]
        exact orderly.kept
  | taken handling entered manager handlings log => exact orderly.taken entered handlings log
  | begun found middleware wrapped => exact orderly.begun found wrapped _ _
  | answered found answers => exact orderly.answered found answers

end Steps

theorem orderly_initial : Orderly setup .initial :=
  ⟨by simp [State.initial], by simp [State.initial], by simp [State.initial]⟩

/-- A flag that reaches the runner delays the deletion of every message of the topic. -/
theorem deletesAfterHandling_of_waits {topic : String} (waits : setup.waitsToCommit topic = true) :
    DeletesAfterHandling setup topic := by
  intro events final execution
  have preserved : ∀ before event after, Orderly setup before →
      (system setup).step before event = some after → Orderly setup after :=
    fun _ _ _ orderly stepped => orderly_step orderly stepped
  have orderly := System.invariant_of_run preserved orderly_initial execution
  refine ⟨fun id handling found same => ?_, fun id handling found same failed deleted => ?_⟩
  · exact (orderly.kept id handling found (same ▸ waits)).deleted
  · have kept := orderly.kept id handling found (same ▸ waits)
    obtain ⟨earlier, later, split⟩ := List.append_of_mem deleted
    have resolved := kept.deleted earlier _ later split rfl
    exact kept.failed failed (split ▸ List.mem_append_left _ resolved)

/-- A message is received, and handed on by the middleware if there is any. -/
def receives (setup : Setup η) (topic : String) : List Event :=
  [.start [topic], .fetch 0 0, .dequeue 0 0 (some [⟨some (.obj []), some "1"⟩]), .take 0 0 0] ++
    if setup.hasMiddleware then [.begin 0 topic (.obj [])] else []

/-- A runner that handles one message. -/
def handlingOne (topic : String) (stage : Stage) : State :=
  ⟨.running, false, [[⟨topic, .receiving [] [0]⟩]],
    [⟨topic, .obj [], ⟨some (.obj []), some "1"⟩, stage⟩], []⟩

theorem run_receives {topic : String} (registered : setup.registry.registers topic = true) :
    (system setup).run (receives setup topic) .initial = some (handlingOne topic .acquiring) := by
  have admits : setup.admits 0 = true := by
    rw [Setup.admits]
    rcases Nat.eq_zero_or_pos setup.concurrency with unlimited | limited
    · simp [unlimited]
    · simp [limited]
  let message : SqsMessage := ⟨some (.obj []), some "1"⟩
  have started : (system setup).step .initial (.start [topic]) =
      some ⟨.running, false, [[⟨topic, .waiting⟩]], [], []⟩ := by
    exact if_pos (by simpa using registered)
  have fetched : (system setup).step ⟨.running, false, [[⟨topic, .waiting⟩]], [], []⟩
      (.fetch 0 0) = some ⟨.running, false, [[⟨topic, .fetching⟩]], [], []⟩ := by
    exact if_pos admits
  have dequeued : (system setup).step ⟨.running, false, [[⟨topic, .fetching⟩]], [], []⟩
      (.dequeue 0 0 (some [message])) =
        some ⟨.running, false, [[⟨topic, .receiving [message] []⟩]], [], []⟩ := rfl
  have taken : (system setup).step
      ⟨.running, false, [[⟨topic, .receiving [message] []⟩]], [], []⟩ (.take 0 0 0) =
        some (handlingOne topic (entrance setup .running message)) := by
    refine if_pos ?_
    simp [State.unsettled, State.anyRejected, admits]
  rw [receives, System.run_append, System.run_cons, started, Option.bind_some, System.run_cons,
    fetched, Option.bind_some, System.run_cons, dequeued, Option.bind_some, System.run_cons, taken,
    Option.bind_some]
  cases middleware : setup.hasMiddleware with
  | false => simp [entrance, middleware, admission, message, RunnerState.shouldTerminate]
  | true =>
      have wrapped : entrance setup .running message = .wrapped := by
        simp [entrance, middleware, message]
      have begun : (system setup).step (handlingOne topic .wrapped) (.begin 0 topic (.obj [])) =
          some (handlingOne topic .acquiring) := if_pos (And.intro middleware rfl)
      simp [wrapped, begun]

/-- Without a flag the handling of a message starts with its deletion. -/
theorem step_deletesFirst {topic : String} (early : setup.waitsToCommit topic = false) :
    (system setup).step (handlingOne topic .acquiring) (.answer 0 true) =
      some { handlingOne topic .deletingFirst with log := [.deed 0 .delete] } := by
  let handling : Handling := ⟨topic, .obj [], ⟨some (.obj []), some "1"⟩, .acquiring⟩
  have acquired : handling.acquired setup = (.deletingFirst, [.delete]) := by
    simp [Handling.acquired, handling, nullish, getContext, early, Handling.deletion,
      Handling.deletable]
  change Option.map _ (some (handling.acquired setup)) = _
  rw [acquired]
  rfl

/-- Where every message of the topic is deleted after it was handled, the runner waits. -/
theorem waits_of_deletesAfterHandling {topic : String}
    (registered : setup.registry.registers topic = true)
    (deletes : DeletesAfterHandling setup topic) : setup.waitsToCommit topic = true := by
  by_contra early
  have execution : (system setup).run (receives setup topic ++ [.answer 0 true]) .initial =
      some { handlingOne topic .deletingFirst with log := [.deed 0 .delete] } := by
    rw [System.run_append, run_receives registered, Option.bind_some, System.run_cons,
      step_deletesFirst (by simpa using early)]
    rfl
  have deleted := (deletes _ _ execution).deleted 0 _ rfl rfl [] _ [] rfl rfl
  simp at deleted

/-- Messages of a registered topic are deleted after handling in every run of an instance exactly
if the runner is told to wait. -/
theorem deletesAfterHandling_iff_waits {topic : String}
    (registered : setup.registry.registers topic = true) :
    DeletesAfterHandling setup topic ↔ setup.waitsToCommit topic = true :=
  ⟨waits_of_deletesAfterHandling registered, deletesAfterHandling_of_waits⟩

/-- The flag of the configuration is not kept, so that only the flag of the task counts. -/
theorem waitsToCommit_ofConfig (environment : Environment) (arrival : Arrival)
    (registry : Registry η) {config kept : Fields} {topic : String} {task : RegistryElem η}
    (sqs : config.get "engine" = some (.str "sqs"))
    (keeps : Configuration.getConfig environment config = .ok kept)
    (registered : registry.getTask topic = some (.own task)) :
    (Setup.ofConfig environment arrival registry kept).waitsToCommit topic = true ↔
      task.options.waitToCommit = some true := by
  rw [Configuration.getConfig_sqs environment sqs] at keeps
  obtain rfl := Except.ok.inj keeps
  have lost : (Configuration.commonParameters environment config ++
      Configuration.sqsParameters config).get "waitToCommit" = none :=
    Configuration.get_sqs_eq_none environment config (by simp) (by simp)
  rw [Setup.waitsToCommit, Setup.ofConfig, lost, registered]
  cases waits : task.options.waitToCommit with
  | none => simp [waits, truthy]
  | some value => simp [waits, truthy]

/-- Where the configuration or the task asks for it, an SQS instance deletes messages after
handling in every run if and only if the task asks for it whenever the configuration does. -/
theorem config_deletesAfterHandling_iff (environment : Environment) (arrival : Arrival)
    (registry : Registry η) {config kept : Fields} {topic : String} {task : RegistryElem η}
    (sqs : config.get "engine" = some (.str "sqs"))
    (keeps : Configuration.getConfig environment config = .ok kept)
    (registered : registry.getTask topic = some (.own task)) :
    (config.get "waitToCommit" = some (.bool true) ∨ task.options.waitToCommit = some true →
        DeletesAfterHandling (Setup.ofConfig environment arrival registry kept) topic) ↔
      (config.get "waitToCommit" = some (.bool true) →
        task.options.waitToCommit = some true) := by
  have known : (Setup.ofConfig environment arrival registry kept).registry.registers topic =
      true := Registry.registers_iff.mpr ⟨task, registered⟩
  rw [deletesAfterHandling_iff_waits known,
    waitsToCommit_ofConfig environment arrival registry sqs keeps registered]
  exact ⟨fun waits asked => waits (Or.inl asked), fun waits asked => asked.elim waits id⟩

/-- An environment without variables that keeps the first of two merged objects. -/
def bareEnvironment : Environment where
  merge := fun base _ => base
  print := fun _ => ""
  parseInt := fun _ => none

/-- The configuration of an SQS instance that asks for a late deletion. -/
def waitingConfig : Fields := [("engine", .str "sqs"), ("waitToCommit", .bool true)]

/-- A task that asks for a late deletion itself. -/
def waitingTask : RegistryElem Unit where
  name := "orders"
  topic := "orders"
  subscribe := ()
  options := { waitToCommit := some true }

/-- A task that asks for a late deletion itself gets it. -/
theorem waitingTask_deletesAfterHandling :
    ∃ kept, Configuration.getConfig bareEnvironment waitingConfig = .ok kept ∧
      DeletesAfterHandling (Setup.ofConfig bareEnvironment orders.arrival
        (Registry.empty.addNewTask waitingTask) kept) "orders" := by
  refine ⟨_, rfl, ?_⟩
  have asked : waitingConfig.get "waitToCommit" = some (.bool true) := rfl
  exact (config_deletesAfterHandling_iff bareEnvironment orders.arrival _ rfl rfl rfl).mpr
    (fun _ => rfl) (Or.inl asked)

/-- A task that relies on the configuration does not. -/
theorem waitingConfig_lost :
    ∃ kept, Configuration.getConfig bareEnvironment waitingConfig = .ok kept ∧
      waitingConfig.get "waitToCommit" = some (.bool true) ∧
        ¬ DeletesAfterHandling (Setup.ofConfig bareEnvironment orders.arrival orders.registry kept)
          "orders" := by
  refine ⟨_, rfl, rfl, fun deletes => ?_⟩
  have early := (deletes (receiving ++ [.answer 0 true]) _ rfl).deleted 0 _ rfl rfl [] _ [] rfl rfl
  simp at early

end Polling

end Steveo
