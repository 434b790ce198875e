import Steveo.Workflow.History

/-!
# Messages delivered in any order and repeatedly

A delivery runs whatever step the stored row stands at, whether or not the message was published
for that step, and also when the row is marked completed.  Under the condition that this does not
happen, every run has a sound history.
-/

namespace Steveo

open Steveo.Action Engine

/-! ## What handling a message does to the rows -/

namespace Workflow

variable {workflow : Workflow} {workflowId : String} {before after : Session}
  {outcome : Except String Unit}

/-- If the end of an execution was logged, its row is gone or marked. -/
def EndsMarked (workflowId : String) (before after : Session) (outcome : Except String Unit) :
    Prop :=
  ∀ owner, Ended after.log owner → Ended before.log owner ∨
    (owner = workflowId ∧ outcome = .ok () ∧
      ∀ row, after.table workflowId = some row → row.completed = true)

theorem ended_of_touches (touches : Touches workflowId before after) {owner : String}
    (ended : Ended after.log owner) : Ended before.log owner := by
  obtain ⟨calls, log, idle⟩ := touches.log
  rw [log] at ended
  exact (History.ended_append_iff fun call member => (idle call member).ended).mp ended

theorem endsMarked_of_unwound (unwound : Unwound workflowId before outcome after) :
    EndsMarked workflowId before after outcome := by
  intro owner ended
  cases unwound with
  | threw touches => exact .inl (ended_of_touches touches ended)
  | returned touches _ _ => exact .inl (ended_of_touches touches ended)
  | @completed middle row touches found failed =>
      obtain ⟨call, member, ends⟩ := ended
      rcases List.mem_append.mp member with earlier | new
      · exact .inl (ended_of_touches touches ⟨call, earlier, ends⟩)
      · rw [List.mem_singleton.mp new] at ends
        refine .inr ⟨(Option.some.inj ends).symm, rfl, ?_⟩
        simp only [Session.stored_table, Function.update_self, Option.some.injEq, forall_eq']

theorem unwound_others (unwound : Unwound workflowId before outcome after) {other : String}
    (different : other ≠ workflowId) : after.table other = before.table other := by
  cases unwound with
  | threw touches => exact touches.others other different
  | returned touches _ _ => exact touches.others other different
  | completed touches _ _ =>
      exact (Function.update_of_ne different _ _).trans (touches.others other different)

theorem handled_others {payload : Fields} {row : WorkflowState}
    (handled : Handled workflow workflowId payload row before outcome after) {other : String}
    (different : other ≠ workflowId) : after.table other = before.table other := by
  cases handled with
  | rejected unwound => exact unwound_others unwound different
  | failed _ unwound => exact unwound_others unwound different
  | advanced _ _ _ touches =>
      exact (Function.update_of_ne different _ _).trans (touches.others other different)
  | finished _ _ _ touches =>
      rw [finished]
      split <;> exact (Function.update_of_ne different _ _).trans (touches.others other different)

theorem endsMarked_of_handled {payload : Fields} {row : WorkflowState}
    (handled : Handled workflow workflowId payload row before outcome after) :
    EndsMarked workflowId before after outcome := by
  have calling : ∀ owner, Ended (called before workflowId row payload).log owner →
      Ended before.log owner := fun owner =>
    (History.ended_append_iff (by simp [Call.ended])).mp
  intro owner ended
  cases handled with
  | rejected unwound => exact endsMarked_of_unwound unwound owner ended
  | failed _ unwound =>
      rcases endsMarked_of_unwound unwound owner ended with earlier | marked
      · exact .inl (calling owner earlier)
      · exact .inr marked
  | advanced _ _ _ touches =>
      refine .inl (calling owner (ended_of_touches touches ?_))
      simpa [published, moved, Ended, or_and_right, exists_or, Call.ended] using ended
  | @finished index step result ranSession runnable last resolved touches =>
      rw [Workflow.finished] at ended ⊢
      split at ended
      · next deletes =>
          obtain ⟨call, member, ends⟩ := ended
          rcases List.mem_append.mp member with earlier | new
          · exact .inl (calling owner (ended_of_touches touches ⟨call, earlier, ends⟩))
          · rw [List.mem_singleton.mp new] at ends
            exact .inr ⟨(Option.some.inj ends).symm, rfl, by simp [deletes]⟩
      · next keeps =>
          obtain ⟨call, member, ends⟩ := ended
          rcases List.mem_append.mp member with earlier | new
          · exact .inl (calling owner (ended_of_touches touches ⟨call, earlier, ends⟩))
          · rw [List.mem_singleton.mp new] at ends
            refine .inr ⟨(Option.some.inj ends).symm, rfl, ?_⟩
            simp only [keeps, Bool.false_eq_true, if_false, Session.stored_table,
              Function.update_self, Option.some.injEq, forall_eq']

end Workflow

/-! ## Executions that cannot be run any more -/

/-- Effects without any call that runs a step or its rollback function. -/
def Silent (workflowId : String) (before after : Session) : Prop :=
  ∃ calls, after.log = before.log ++ calls ∧ ∀ call ∈ calls,
    (call.publication = none ∧ call.execution = none) ∧ call.ranFor = none ∧
      ∀ owner, call.ended = some owner → owner = workflowId

namespace Silent

variable {workflowId : String}

theorem effects (workflowId : String) : EffectRelation (Silent workflowId) where
  refl session := ⟨[], by simp⟩
  trans := by
    rintro before middle after ⟨calls, log, silent⟩ ⟨calls', log', silent'⟩
    refine ⟨calls ++ calls', by rw [log', log, List.append_assoc], fun call member => ?_⟩
    rcases List.mem_append.mp member with earlier | later
    · exact silent call earlier
    · exact silent' call later

theorem record {call : Call} (idle : call.publication = none ∧ call.execution = none)
    (quiet : call.ranFor = none) (ends : ∀ owner, call.ended = some owner → owner = workflowId) :
    Preserves (Silent workflowId) (Engine.record call) :=
  fun session => ⟨[call], rfl, by simpa using ⟨idle, quiet, ends⟩⟩

theorem update (owner : String) (change : WorkflowState → WorkflowState) :
    Preserves (Silent workflowId) (WorkflowRepository.update owner change) :=
  update_preserves (effects workflowId) fun _ _ _ => ⟨[], by simp⟩

/-- A rollback at a step without a rollback function runs nothing. -/
theorem executeRollback (workflow : Workflow) (context : ExecuteContext)
    (none : context.step.rollback = none) :
    Preserves (Silent context.workflowId) (workflow.executeRollback context) := by
  have effects := effects context.workflowId
  have round : Preserves (Silent context.workflowId) (workflow.rollbackRound context) := by
    rw [Workflow.rollbackRound, Workflow.callRollback, none]
    refine effects.bind (effects.pure ()) fun _ =>
      effects.bind (getPreviousStep_preserves effects workflow _) fun previous => ?_
    cases previous with
    | none =>
        refine effects.bind (record ⟨rfl, rfl⟩ rfl ?_) fun _ => update _ _
        exact fun owner ends => (Option.some.inj ends).symm
    | some previous =>
        exact effects.bind (record ⟨rfl, rfl⟩ rfl (by simp [Call.ended])) fun _ => update _ _
  refine rollbackLoop_preserves effects round (fun thrown => ?_) _ _
  exact effects.bind (record ⟨rfl, rfl⟩ rfl (by simp [Call.ended])) fun _ => update _ _

/-- Continuing a failed execution whose current step cannot be undone runs nothing. -/
theorem continueFrom (workflow : Workflow) (workflowId : String) (payload : Fields)
    (row : WorkflowState) (failed : row.errorList ≠ [])
    (bare : ∀ step ∈ workflow.steps, step.name = row.current → step.rollback = none) :
    Preserves (Silent workflowId) (workflow.continueFrom workflowId payload row) := by
  refine (effects workflowId).bind ((effects workflowId).ensure _ _) fun _ => ?_
  cases current : workflow.steps.find? fun step => step.name == row.current with
  | none => exact (effects workflowId).throw _
  | some step =>
      have failing : row.errorList.isEmpty = false := by simpa using failed
      have name : step.name = row.current := by simpa using List.find?_some current
      simp only [failing, Bool.false_eq_true, if_false]
      exact executeRollback workflow ⟨workflowId, payload, step, row⟩
        (bare step (List.mem_of_find?_eq_some current) name)

/-- A history stays sound under effects that run nothing. -/
theorem history {workflow : Workflow} {before after : Session} {started : List String}
    {delivered : List Nat} (silent : Silent workflowId before after)
    (history : workflow.History before.log started delivered) (member : workflowId ∈ started) :
    workflow.History after.log started delivered := by
  obtain ⟨calls, log, quiet⟩ := silent
  rw [log]
  refine history.append (fun call new => (quiet call new).1) ?_ ?_ ?_
  · refine List.pairwise_of_forall_mem_list fun earlier _ later new owner _ => ?_
    simp [(quiet later new).2.1]
  · intro call new owner runs
    simp [(quiet call new).2.1] at runs
  · intro call new owner ends
    rwa [(quiet call new).2.2 owner ends]

end Silent

/-! ## Runs -/

namespace Workflow

variable {workflow : Workflow}

/-- A delivery comes at its time: the message names the execution that published it; if the step
at which that execution stands may run, the message was published for this step and is delivered
for the first time; and if the execution is completed, it has failed at a step without a rollback
function, so that nothing is left to run. -/
def OnTime (workflow : Workflow) (broker : Broker) : BrokerEvent → Prop
  | .start _ => True
  | .deliver index => ∀ message, (publications broker.session.log)[index]? = some message →
      message.payload.get "workflowId" = some (.str message.workflowId) ∧
        ∀ row, broker.session.table message.workflowId = some row →
          (∀ position step, workflow.Runnable row position step →
            message.step = row.current ∧ index ∉ broker.delivered) ∧
          (row.completed = true → row.errorList ≠ [] ∧
            ∀ step ∈ workflow.steps, step.name = row.current → step.rollback = none)

/-- What holds of a broker whose deliveries came at their time. -/
structure Consistent (workflow : Workflow) (broker : Broker) : Prop where
  history : workflow.History broker.session.log broker.started broker.delivered
  rows : ∀ workflowId row, broker.session.table workflowId = some row →
    workflowId ∈ broker.started
  ended : ∀ workflowId row, broker.session.table workflowId = some row →
    Ended broker.session.log workflowId → row.completed = true

theorem completed_of_unwound {before after : Session} {workflowId : String}
    {outcome : Except String Unit} (unwound : Unwound workflowId before outcome after)
    {row stored : WorkflowState} (found : before.table workflowId = some row)
    (completed : row.completed = true) (stored_at : after.table workflowId = some stored) :
    stored.completed = true := by
  have kept : ∀ {session : Session}, Touches workflowId before session →
      ∀ {changed : WorkflowState}, session.table workflowId = some changed →
        changed.completed = true := by
    intro session touches changed changed_at
    obtain ⟨candidate, candidate_at, -, same⟩ := touches.row row found
    rw [Option.some.inj (changed_at.symm.trans candidate_at), same, completed]
  cases unwound with
  | threw touches => exact kept touches stored_at
  | returned touches _ _ => exact kept touches stored_at
  | completed touches _ _ =>
      simp only [Session.stored_table, Function.update_self, Option.some.injEq] at stored_at
      rw [← stored_at]

/-- Handling a message of a failed and completed execution leaves it completed. -/
theorem completed_of_handled {before after : Session} {workflowId : String} {payload : Fields}
    {row stored : WorkflowState} {outcome : Except String Unit}
    (handled : Handled workflow workflowId payload row before outcome after)
    (failed : row.errorList ≠ []) (found : before.table workflowId = some row)
    (completed : row.completed = true) (stored_at : after.table workflowId = some stored) :
    stored.completed = true := by
  cases handled with
  | rejected unwound => exact completed_of_unwound unwound found completed stored_at
  | failed runnable _ => exact absurd runnable.clean failed
  | advanced runnable _ _ _ => exact absurd runnable.clean failed
  | finished runnable _ _ _ => exact absurd runnable.clean failed

/-- A broker stays consistent when the handling of a message in a transaction ends. -/
theorem consistent_settled {opened before after : Session} {started : List String}
    {delivered : List Nat} {workflowId : String} {outcome : Except String Unit}
    (consistent : workflow.Consistent ⟨opened, started, delivered⟩) (member : workflowId ∈ started)
    (calm : ∀ owner, Ended before.log owner → Ended opened.log owner)
    (apart : ∀ other, other ≠ workflowId → before.table other = opened.table other)
    (history : workflow.History after.log started delivered)
    (others : ∀ other, other ≠ workflowId → after.table other = before.table other)
    (marks : EndsMarked workflowId before after outcome)
    (kept : Ended before.log workflowId →
      ∀ row, after.table workflowId = some row → row.completed = true) :
    workflow.Consistent ⟨settled opened (outcome, after), started, delivered⟩ := by
  have ends : ∀ event owner, Ended (after.log ++ [.emit event]) owner → Ended after.log owner :=
    fun event owner => (History.ended_append_iff (by simp [Call.ended])).mp
  have earlier : ∀ owner, owner ≠ workflowId → Ended after.log owner →
      Ended opened.log owner := by
    intro owner different ended
    rcases marks owner ended with past | ⟨same, -, -⟩
    · exact calm owner past
    · exact absurd same different
  cases outcome with
  | error thrown =>
      refine ⟨history.emit _, consistent.rows, fun owner row found ended => ?_⟩
      refine consistent.ended owner row found ?_
      rcases marks owner (ends _ owner ended) with past | ⟨-, returned, -⟩
      · exact calm owner past
      · simp at returned
  | ok _ =>
      refine ⟨history.emit _, fun owner row found => ?_, fun owner row found ended => ?_⟩
      · by_cases same : owner = workflowId
        · rwa [same]
        · exact consistent.rows owner row
            ((apart owner same).symm.trans ((others owner same).symm.trans found))
      · by_cases same : owner = workflowId
        · subst same
          rcases marks owner (ends _ owner ended) with past | ⟨-, -, marked⟩
          · exact kept past row found
          · exact marked row found
        · exact consistent.ended owner row
            ((apart owner same).symm.trans ((others owner same).symm.trans found))
            (earlier owner same (ends _ owner ended))

/-- Starting a new execution keeps a broker consistent. -/
theorem consistent_start (distinct : workflow.DistinctNames) {broker : Broker} {payload : Fields}
    (consistent : workflow.Consistent broker)
    (anonymous : nullish (payload.get "workflowId") = true)
    (unused : workflow.freshId broker.session ∉ broker.started) :
    workflow.Consistent ⟨workflow.handle broker.session payload,
      broker.started ++ [workflow.freshId broker.session], broker.delivered⟩ := by
  obtain ⟨session, started, delivered⟩ := broker
  have history : workflow.History session.log (started ++ [workflow.freshId session])
      delivered := by
    simpa using consistent.history.mono [workflow.freshId session] []
  have opened : workflow.Consistent ⟨session.ticked, started ++ [workflow.freshId session],
      delivered⟩ :=
    ⟨history, fun owner row found => List.mem_append_left _ (consistent.rows owner row found),
      consistent.ended⟩
  cases first : workflow.steps[0]? with
  | none =>
      have empty : workflow.steps = [] := by simpa using first
      rw [handle_empty empty]
      refine ⟨history.emit _, opened.rows, fun owner row found ended => ?_⟩
      exact consistent.ended owner row found
        ((History.ended_append_iff (by simp [Call.ended])).mp ended)
  | some firstStep =>
      have absent : session.table (workflow.freshId session) = none := by
        cases found : session.table (workflow.freshId session) with
        | none => rfl
        | some row => exact absurd (consistent.rows _ row found) unused
      have fresh : ¬ Ended session.log (workflow.freshId session) :=
        fun ended => unused (consistent.history.ended_known _ ended)
      have found := begun_table workflow session.ticked (workflow.freshId session) firstStep payload
      have handled := continueFrom_handled distinct (workflow.freshId session) payload found
      rw [handle, subscribe_begun anonymous first absent]
      revert handled
      rcases exec (workflow.continueFrom (workflow.freshId session) payload
        (workflow.initialRow (workflow.freshId session) firstStep payload))
        (workflow.begun session.ticked (workflow.freshId session) firstStep payload)
        with ⟨outcome, after⟩
      intro handled
      refine consistent_settled opened (by simp) (fun owner => History.ended_of_begun) ?_ ?_
        (fun other different => handled_others handled different) (endsMarked_of_handled handled) ?_
      · exact fun other different => Function.update_of_ne different _ _
      · exact opened.history.of_begun distinct first (by simp) (workflow.freshId_ne_empty session)
          (fun step ran => unused (consistent.history.known _ step ran)) fresh handled
      · exact fun ended => absurd (History.ended_of_begun ended) fresh

/-- A delivery that comes at its time keeps a broker consistent. -/
theorem consistent_deliver (distinct : workflow.DistinctNames) {broker : Broker} {index : Nat}
    {message : Published} (consistent : workflow.Consistent broker)
    (found_message : (publications broker.session.log)[index]? = some message)
    (onTime : workflow.OnTime broker (.deliver index)) :
    workflow.Consistent ⟨workflow.handle broker.session message.payload, broker.started,
      broker.delivered ++ [index]⟩ := by
  obtain ⟨session, started, delivered⟩ := broker
  obtain ⟨carries, timely⟩ := onTime message found_message
  obtain ⟨named, ran, adjacent⟩ := consistent.history.linked message
    (List.mem_of_getElem? found_message)
  have member := consistent.history.known _ _ ran
  have history : workflow.History session.log started (delivered ++ [index]) := by
    simpa using consistent.history.mono [] [index]
  have opened : workflow.Consistent ⟨session, started, delivered ++ [index]⟩ :=
    ⟨history, consistent.rows, consistent.ended⟩
  have nonempty := adjacent.nonempty
  have resumed_history := history.resumes message.workflowId
  cases found : session.table message.workflowId with
  | none =>
      rw [handle, subscribe_absent carries named nonempty found]
      refine ⟨resumed_history.emit _, opened.rows, fun owner row found ended => ?_⟩
      exact consistent.ended owner row found (History.ended_of_resumed
        ((History.ended_append_iff (by simp [Call.ended])).mp ended))
  | some row =>
      have resumed_at : (resumed session message.workflowId).table message.workflowId =
        some row := found
      have handled := continueFrom_handled distinct message.workflowId message.payload resumed_at
      have silent := fun failed bare => Silent.continueFrom workflow message.workflowId
        message.payload row failed bare (resumed session message.workflowId)
      obtain ⟨entitled, closed⟩ := timely row found
      rw [handle, subscribe_stored carries named nonempty found]
      revert handled silent
      rcases exec (workflow.continueFrom message.workflowId message.payload row)
        (resumed session message.workflowId) with ⟨outcome, after⟩
      intro handled silent
      have settles := fun kept history => consistent_settled opened member
        (fun owner => History.ended_of_resumed) (fun _ _ => rfl) history
        (fun other different => handled_others handled different) (endsMarked_of_handled handled)
        kept
      cases completed : row.completed with
      | false =>
          have running : ¬ Ended session.log message.workflowId := fun ended => by
            simp [consistent.ended _ row found ended] at completed
          refine settles (fun ended => absurd (History.ended_of_resumed ended) running)
            (history.of_resumed distinct found_message (by simp) running ?_ handled)
          intro position step runnable
          obtain ⟨current, undelivered⟩ := entitled position step runnable
          exact ⟨current, consistent.history.not_run distinct found_message undelivered⟩
      | true =>
          obtain ⟨failed, bare⟩ := closed completed
          exact settles
            (fun _ _ => completed_of_handled handled failed resumed_at completed)
            ((silent failed bare).history resumed_history member)

theorem consistent_step (distinct : workflow.DistinctNames) (before : Broker) (event : BrokerEvent)
    (after : Broker) (consistent : workflow.Consistent before)
    (onTime : workflow.OnTime before event)
    (step : workflow.delivery.step before event = some after) : workflow.Consistent after := by
  obtain ⟨session, started, delivered⟩ := after
  cases event with
  | start payload =>
      obtain ⟨anonymous, unused, rfl, rfl, rfl⟩ := delivery_start step
      exact consistent_start distinct consistent anonymous unused
  | deliver index =>
      obtain ⟨message, found, rfl, rfl, rfl⟩ := delivery_deliver step
      exact consistent_deliver distinct consistent found onTime

/-- A broker that has done nothing yet. -/
def idleBroker (tick : Nat) : Broker := ⟨⟨fun _ => none, tick, []⟩, [], []⟩

theorem consistent_idleBroker (workflow : Workflow) (tick : Nat) :
    workflow.Consistent (idleBroker tick) where
  history := .empty workflow [] []
  rows := by simp [idleBroker]
  ended := by simp [idleBroker]

/-- While every delivery comes at its time, no step is run twice or with a payload that was not
published for it, and nothing runs after the end of its execution. -/
theorem delivery_runsOnce (distinct : workflow.DistinctNames) {tick : Nat}
    {events : List BrokerEvent} {final : Broker}
    (along : workflow.delivery.Along workflow.OnTime events (idleBroker tick))
    (run : workflow.delivery.run events (idleBroker tick) = some final) :
    workflow.RunsOnce final.session.log final.delivered :=
  (System.invariant_run (consistent_step distinct) (consistent_idleBroker workflow tick) along
    run).history.toRunsOnce

/-- The message of the second step, delivered once. -/
theorem resolving_delivered_once :
    ∃ final, (resolving ["a", "b"]).delivery.run [.start [], .deliver 0] (idleBroker 0) =
        some final ∧
      executions final.session.log = [("flow-1", "a"), ("flow-1", "b")] ∧
        (resolving ["a", "b"]).RunsOnce final.session.log final.delivered := by
  have along : (resolving ["a", "b"]).delivery.Along (resolving ["a", "b"]).OnTime
      [.start [], .deliver 0] (idleBroker 0) := by
    refine ⟨trivial, fun middle started => ?_⟩
    obtain rfl := Option.some.inj started
    refine ⟨fun message found => ?_, fun _ _ => trivial⟩
    obtain rfl := Option.some.inj found
    refine ⟨rfl, fun row stored => ?_⟩
    obtain rfl := Option.some.inj stored
    exact ⟨fun _ _ _ => ⟨rfl, List.not_mem_nil⟩, fun completed => Bool.noConfusion completed⟩
  have distinct : (resolving ["a", "b"]).DistinctNames := by
    simp [DistinctNames, resolving, accepting]
  exact ⟨_, rfl, rfl, delivery_runsOnce distinct along rfl⟩

/-- A second delivery of that message runs the last step again, after the execution has been
marked completed. -/
theorem resolving_delivered_twice :
    ∃ final, (resolving ["a", "b"]).delivery.run [.start [], .deliver 0, .deliver 0]
        (idleBroker 0) = some final ∧
      executions final.session.log = [("flow-1", "a"), ("flow-1", "b"), ("flow-1", "b")] ∧
        ¬ (resolving ["a", "b"]).RunsOnce final.session.log final.delivered := by
  refine ⟨_, rfl, rfl, fun runsOnce => ?_⟩
  have twice : [("flow-1", "a"), ("flow-1", "b"), ("flow-1", "b")].Nodup := runsOnce.once
  simp at twice

end Workflow

end Steveo
