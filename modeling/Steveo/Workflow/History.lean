import Mathlib.Data.List.Pairwise
import Steveo.Workflow.Delivery

/-!
# Histories in which no step is run twice

A log of calls is a sound history when every step was run at most once, with the payload published
for it, and nothing was run on behalf of an execution after its end.  Handling a message keeps a
history sound if the step that it may run has not been run before.
-/

namespace Steveo

open Steveo.Action

namespace Call

/-- The execution that a call ends. -/
def ended : Call → Option String
  | .updateWorkflowCompleted workflowId | .deleteWorkflow workflowId => some workflowId
  | _ => none

/-- The execution on whose behalf a call runs one of the workflow's functions. -/
def ranFor : Call → Option String
  | .execute workflowId _ _ | .rollback workflowId _ => some workflowId
  | _ => none

theorem Idle.ended {workflowId : String} {call : Call} (idle : call.Idle workflowId) :
    call.ended = none := by
  cases call with
  | updateWorkflowCompleted owner => exact idle.elim
  | deleteWorkflow owner => exact idle.elim
  | _ => rfl

theorem Idle.ranFor {workflowId owner : String} {call : Call} (idle : call.Idle workflowId)
    (runs : call.ranFor = some owner) : owner = workflowId := by
  cases call with
  | execute owner step payload => exact idle.elim
  | rollback candidate step =>
      obtain rfl := Option.some.inj runs
      exact idle
  | _ => simp [Call.ranFor] at runs

end Call

/-- The end of an execution is in the log. -/
def Ended (log : List Call) (workflowId : String) : Prop :=
  ∃ call ∈ log, call.ended = some workflowId

namespace Workflow

/-- One step directly follows another. -/
def Adjacent (workflow : Workflow) (previous next : String) : Prop :=
  ∃ index previousStep nextStep, workflow.steps[index]? = some previousStep ∧
    workflow.steps[index + 1]? = some nextStep ∧ previousStep.name = previous ∧
      nextStep.name = next

theorem Adjacent.unique {workflow : Workflow} (distinct : workflow.DistinctNames)
    {first second next : String} (left : workflow.Adjacent first next)
    (right : workflow.Adjacent second next) : first = second := by
  obtain ⟨index, leftStep, leftNext, left_at, left_next, rfl, left_name⟩ := left
  obtain ⟨other, rightStep, rightNext, right_at, right_next, rfl, right_name⟩ := right
  have same := distinct.eq_of_name_eq left_next right_next (left_name.trans right_name.symm)
  obtain rfl : index = other := by omega
  rw [Option.some.inj (left_at.symm.trans right_at)]

theorem Adjacent.ne_first {workflow : Workflow} (distinct : workflow.DistinctNames)
    {previous next : String} (adjacent : workflow.Adjacent previous next) {firstStep : Step}
    (first : workflow.steps[0]? = some firstStep) : next ≠ firstStep.name := by
  rintro rfl
  obtain ⟨index, previousStep, nextStep, -, next_at, -, name⟩ := adjacent
  have same := distinct.eq_of_name_eq next_at first name
  omega

theorem Adjacent.nonempty {workflow : Workflow} {previous next : String}
    (adjacent : workflow.Adjacent previous next) : workflow.steps ≠ [] := by
  obtain ⟨index, previousStep, nextStep, found, -⟩ := adjacent
  rintro none
  simp [none] at found

/-- What entitles a step to be run with a payload: the execution was started with it and the step
is the first one, or it was published for the step in a message that has been delivered. -/
def Justified (workflow : Workflow) (log : List Call) (delivered : List Nat)
    (workflowId step : String) (payload : Fields) : Prop :=
  (∃ firstStep, workflow.steps[0]? = some firstStep ∧ step = firstStep.name ∧
      Call.workflowInit workflowId payload ∈ log) ∨
    ∃ index message, (publications log)[index]? = some message ∧ index ∈ delivered ∧
      message.workflowId = workflowId ∧ message.step = step ∧ message.payload = payload

/-- Every step was run at most once and for a reason, and nothing was run after the end of its
execution. -/
structure RunsOnce (workflow : Workflow) (log : List Call) (delivered : List Nat) : Prop where
  once : (executions log).Nodup
  justified : ∀ workflowId step payload, Call.execute workflowId step payload ∈ log →
    workflow.Justified log delivered workflowId step payload
  quiet : log.Pairwise fun earlier later =>
    ∀ workflowId, earlier.ended = some workflowId → later.ranFor ≠ some workflowId

/-- A sound history together with what relates its messages to the steps that published them. -/
structure History (workflow : Workflow) (log : List Call) (started : List String)
    (delivered : List Nat) : Prop extends workflow.RunsOnce log delivered where
  known : ∀ workflowId step, (workflowId, step) ∈ executions log → workflowId ∈ started
  ended_known : ∀ workflowId, Ended log workflowId → workflowId ∈ started
  linked : ∀ message ∈ publications log, message.workflowId ≠ "" ∧
    (message.workflowId, message.previous) ∈ executions log ∧
      workflow.Adjacent message.previous message.step
  unique : ((publications log).map fun message => (message.workflowId, message.step)).Nodup

theorem Justified.mono {workflow : Workflow} {log : List Call} {delivered : List Nat}
    {workflowId step : String} {payload : Fields}
    (justified : workflow.Justified log delivered workflowId step payload) (calls : List Call)
    (indices : List Nat) :
    workflow.Justified (log ++ calls) (delivered ++ indices) workflowId step payload := by
  rcases justified with ⟨firstStep, first, name, initialised⟩ |
    ⟨index, message, found, member, owner, name, body⟩
  · exact .inl ⟨firstStep, first, name, List.mem_append_left calls initialised⟩
  · refine .inr ⟨index, message, ?_, List.mem_append_left indices member, owner, name, body⟩
    obtain ⟨bound, -⟩ := List.getElem?_eq_some_iff.mp found
    rw [publications_append, List.getElem?_append_left bound, found]

theorem execution_of_mem {log : List Call} {workflowId step : String} {payload : Fields}
    (member : Call.execute workflowId step payload ∈ log) : (workflowId, step) ∈ executions log :=
  List.mem_filterMap.mpr ⟨_, member, rfl⟩

theorem exists_execute {log : List Call} {workflowId step : String}
    (ran : (workflowId, step) ∈ executions log) :
    ∃ payload, Call.execute workflowId step payload ∈ log := by
  obtain ⟨call, member, runs⟩ := List.mem_filterMap.mp ran
  cases call with
  | execute owner name payload =>
      obtain ⟨rfl, rfl⟩ := Prod.mk.inj (Option.some.inj runs)
      exact ⟨payload, member⟩
  | _ => simp [Call.execution] at runs

namespace History

variable {workflow : Workflow} {log calls : List Call} {started : List String}
  {delivered : List Nat}

theorem empty (workflow : Workflow) (started : List String) (delivered : List Nat) :
    workflow.History [] started delivered where
  once := List.nodup_nil
  justified := by simp
  quiet := List.Pairwise.nil
  known := by simp
  ended_known := by simp [Ended]
  linked := by simp
  unique := List.nodup_nil

theorem mono (history : workflow.History log started delivered) (identifiers : List String)
    (indices : List Nat) :
    workflow.History log (started ++ identifiers) (delivered ++ indices) where
  once := history.once
  justified := by
    intro workflowId step payload member
    simpa using (history.justified workflowId step payload member).mono [] indices
  quiet := history.quiet
  known := fun workflowId step member =>
    List.mem_append_left identifiers (history.known workflowId step member)
  ended_known := fun workflowId ended =>
    List.mem_append_left identifiers (history.ended_known workflowId ended)
  linked := history.linked
  unique := history.unique

/-- There is one message for each step of an execution. -/
theorem index_unique (history : workflow.History log started delivered) {left right : Nat}
    {leftMessage rightMessage : Published}
    (left_at : (publications log)[left]? = some leftMessage)
    (right_at : (publications log)[right]? = some rightMessage)
    (owner : leftMessage.workflowId = rightMessage.workflowId)
    (step : leftMessage.step = rightMessage.step) : left = right := by
  obtain ⟨bound, -⟩ := List.getElem?_eq_some_iff.mp left_at
  refine (List.getElem?_inj (by simpa using bound) history.unique).mp ?_
  simp [left_at, right_at, owner, step]

/-- A step for which an undelivered message was published has not been run. -/
theorem not_run (history : workflow.History log started delivered)
    (distinct : workflow.DistinctNames) {index : Nat} {message : Published}
    (found : (publications log)[index]? = some message) (undelivered : index ∉ delivered) :
    (message.workflowId, message.step) ∉ executions log := by
  intro ran
  obtain ⟨payload, executed⟩ := exists_execute ran
  rcases history.justified _ _ payload executed with
    ⟨firstStep, first, name, -⟩ | ⟨other, candidate, other_at, member, owner, step, -⟩
  · obtain ⟨-, -, adjacent⟩ := history.linked message (List.mem_of_getElem? found)
    exact adjacent.ne_first distinct first name
  · exact undelivered (history.index_unique other_at found owner step ▸ member)

/-- Calls that run no step and publish nothing may follow, if what they run has not ended and
nothing among them is run after an end. -/
theorem append (history : workflow.History log started delivered)
    (idle : ∀ call ∈ calls, call.publication = none ∧ call.execution = none)
    (quiet : calls.Pairwise fun earlier later =>
      ∀ workflowId, earlier.ended = some workflowId → later.ranFor ≠ some workflowId)
    (running : ∀ call ∈ calls, ∀ workflowId, call.ranFor = some workflowId →
      ¬ Ended log workflowId)
    (ending : ∀ call ∈ calls, ∀ workflowId, call.ended = some workflowId →
      workflowId ∈ started) :
    workflow.History (log ++ calls) started delivered := by
  have publishes : publications calls = [] :=
    List.filterMap_eq_nil_iff.mpr fun call member => (idle call member).1
  have runs : executions calls = [] :=
    List.filterMap_eq_nil_iff.mpr fun call member => (idle call member).2
  refine ⟨⟨?_, ?_, ?_⟩, ?_, ?_, ?_, ?_⟩
  · simpa [runs] using history.once
  · intro workflowId step payload member
    have kept := fun earlier =>
      (history.justified workflowId step payload earlier).mono calls []
    rcases List.mem_append.mp member with earlier | new
    · simpa using kept earlier
    · have run := execution_of_mem new
      simp [runs] at run
  · rw [List.pairwise_append]
    refine ⟨history.quiet, quiet, fun earlier member later new workflowId ended runs => ?_⟩
    exact running later new workflowId runs ⟨earlier, member, ended⟩
  · simpa [runs] using history.known
  · rintro workflowId ⟨call, member, ended⟩
    rcases List.mem_append.mp member with earlier | new
    · exact history.ended_known workflowId ⟨call, earlier, ended⟩
    · exact ending call new workflowId ended
  · simpa [publishes, runs] using history.linked
  · simpa [publishes] using history.unique

/-- A step that was not run before may be run for a reason before the end of its execution. -/
theorem execute (history : workflow.History log started delivered) {workflowId step : String}
    {payload : Fields} (new : (workflowId, step) ∉ executions log)
    (member : workflowId ∈ started) (running : ¬ Ended log workflowId)
    (justified : workflow.Justified log delivered workflowId step payload) :
    workflow.History (log ++ [.execute workflowId step payload]) started delivered := by
  refine ⟨⟨?_, ?_, ?_⟩, ?_, ?_, ?_, ?_⟩
  · simp only [executions_append, executions_cons, executions_nil, Call.execution,
      Option.toList_some, List.append_nil]
    refine List.nodup_append'.mpr ⟨history.once, List.nodup_singleton _, ?_⟩
    exact List.disjoint_singleton.mpr new
  · intro owner name body ran
    rcases List.mem_append.mp ran with earlier | now
    · simpa using (history.justified owner name body earlier).mono [_] []
    · obtain ⟨rfl, rfl, rfl⟩ := Call.execute.inj (List.mem_singleton.mp now)
      simpa using justified.mono [_] []
  · rw [List.pairwise_append]
    refine ⟨history.quiet, List.pairwise_singleton _ _,
      fun earlier past later now owner ended runs => ?_⟩
    obtain rfl := List.mem_singleton.mp now
    obtain rfl := Option.some.inj runs
    exact running ⟨earlier, past, ended⟩
  · intro owner name ran
    rw [executions_append] at ran
    rcases List.mem_append.mp ran with earlier | now
    · exact history.known owner name earlier
    · obtain ⟨rfl, rfl⟩ : owner = workflowId ∧ name = step := by
        simpa [Call.execution] using now
      exact member
  · rintro owner ⟨call, past, ended⟩
    rcases List.mem_append.mp past with earlier | now
    · exact history.ended_known owner ⟨call, earlier, ended⟩
    · rw [List.mem_singleton.mp now] at ended
      simp [Call.ended] at ended
  · intro message published
    have earlier : message ∈ publications log := by simpa [Call.publication] using published
    obtain ⟨named, ran, adjacent⟩ := history.linked message earlier
    exact ⟨named, by simp [ran], adjacent⟩
  · simpa [Call.publication] using history.unique

/-- A step that was run may publish its message once. -/
theorem send (history : workflow.History log started delivered)
    (distinct : workflow.DistinctNames) {message : Published} (named : message.workflowId ≠ "")
    (ran : (message.workflowId, message.previous) ∈ executions log)
    (adjacent : workflow.Adjacent message.previous message.step)
    (unpublished : ∀ earlier ∈ publications log, earlier.workflowId = message.workflowId →
      earlier.previous ≠ message.previous) :
    workflow.History (log ++ [.send message]) started delivered := by
  refine ⟨⟨?_, ?_, ?_⟩, ?_, ?_, ?_, ?_⟩
  · simpa [Call.execution] using history.once
  · intro owner name body member
    have earlier : Call.execute owner name body ∈ log := by simpa using member
    simpa using (history.justified owner name body earlier).mono [_] []
  · rw [List.pairwise_append]
    refine ⟨history.quiet, List.pairwise_singleton _ _, ?_⟩
    intro earlier past later now owner ended
    rw [List.mem_singleton.mp now]
    simp [Call.ranFor]
  · simpa [Call.execution] using history.known
  · rintro owner ⟨call, past, ended⟩
    rcases List.mem_append.mp past with earlier | now
    · exact history.ended_known owner ⟨call, earlier, ended⟩
    · rw [List.mem_singleton.mp now] at ended
      simp [Call.ended] at ended
  · intro candidate published
    rw [publications_append] at published
    rcases List.mem_append.mp published with earlier | now
    · obtain ⟨named, ran, adjacent⟩ := history.linked candidate earlier
      exact ⟨named, by simp [ran], adjacent⟩
    · obtain rfl : candidate = message := by simpa [Call.publication] using now
      exact ⟨named, by simp [ran], adjacent⟩
  · simp only [publications_append, publications_cons, publications_nil, Call.publication,
      Option.toList_some, List.append_nil, List.map_append, List.map_cons, List.map_nil]
    refine List.nodup_append'.mpr ⟨history.unique, List.nodup_singleton _, ?_⟩
    refine List.disjoint_singleton.mpr fun member => ?_
    obtain ⟨earlier, published, same⟩ := List.mem_map.mp member
    obtain ⟨owner, step⟩ := Prod.mk.inj same
    obtain ⟨-, -, linked⟩ := history.linked earlier published
    exact unpublished earlier published owner ((step ▸ linked).unique distinct adjacent)

theorem ended_append_iff {workflowId : String} (calm : ∀ call ∈ calls, call.ended = none) :
    Ended (log ++ calls) workflowId ↔ Ended log workflowId := by
  constructor
  · rintro ⟨call, member, ended⟩
    rcases List.mem_append.mp member with earlier | new
    · exact ⟨call, earlier, ended⟩
    · simp [calm call new] at ended
  · rintro ⟨call, member, ended⟩
    exact ⟨call, List.mem_append_left _ member, ended⟩

theorem begun_log (workflow : Workflow) (session : Session) (workflowId : String)
    (firstStep : Step) (payload : Fields) :
    (workflow.begun session workflowId firstStep payload).log =
      session.log ++
        [.transaction, .workflowInit workflowId payload, .loadWorkflow workflowId] := by
  simp [begun, created]

theorem resumed_log (session : Session) (workflowId : String) :
    (resumed session workflowId).log =
      session.log ++ [.transaction, .loadWorkflow workflowId] := by
  simp [resumed]

theorem ended_of_begun {session : Session} {workflowId owner : String} {firstStep : Step}
    {payload : Fields}
    (ended : Ended (workflow.begun session workflowId firstStep payload).log owner) :
    Ended session.log owner := by
  rw [begun_log] at ended
  exact (ended_append_iff (by simp [Call.ended])).mp ended

theorem ended_of_resumed {session : Session} {workflowId owner : String}
    (ended : Ended (resumed session workflowId).log owner) : Ended session.log owner := by
  rw [resumed_log] at ended
  exact (ended_append_iff (by simp [Call.ended])).mp ended

/-- Loading the row of an execution keeps a history sound. -/
theorem resumes {session : Session} (history : workflow.History session.log started delivered)
    (workflowId : String) :
    workflow.History (resumed session workflowId).log started delivered := by
  rw [resumed_log]
  refine history.append ?_ ?_ ?_ ?_ <;>
    simp [Call.publication, Call.execution, Call.ended, Call.ranFor]

theorem of_touches {before after : Session} {workflowId : String}
    (history : workflow.History before.log started delivered)
    (running : ¬ Ended before.log workflowId) (touches : Touches workflowId before after) :
    workflow.History after.log started delivered ∧ ¬ Ended after.log workflowId := by
  obtain ⟨calls, log, idle⟩ := touches.log
  rw [log]
  refine ⟨history.append (fun call member => ⟨(idle call member).publication,
    (idle call member).execution⟩) ?_ ?_ ?_, ?_⟩
  · refine List.pairwise_of_forall_mem_list fun earlier member later _ owner ended => ?_
    simp [(idle earlier member).ended] at ended
  · intro call member owner runs
    rwa [(idle call member).ranFor runs]
  · intro call member owner ended
    simp [(idle call member).ended] at ended
  · rwa [ended_append_iff fun call member => (idle call member).ended]

theorem finish (history : workflow.History log started delivered) {workflowId : String}
    (member : workflowId ∈ started) {call : Call} (ends : call.ended = some workflowId) :
    workflow.History (log ++ [call]) started delivered := by
  refine history.append ?_ (List.pairwise_singleton _ _) ?_ ?_
  · intro candidate new
    rw [List.mem_singleton.mp new]
    cases call with
    | updateWorkflowCompleted owner => exact ⟨rfl, rfl⟩
    | deleteWorkflow owner => exact ⟨rfl, rfl⟩
    | _ => simp [Call.ended] at ends
  · intro candidate new owner runs
    rw [List.mem_singleton.mp new] at runs
    cases call with
    | updateWorkflowCompleted owner => simp [Call.ranFor] at runs
    | deleteWorkflow owner => simp [Call.ranFor] at runs
    | _ => simp [Call.ended] at ends
  · intro candidate new owner ended
    rw [List.mem_singleton.mp new, ends] at ended
    exact Option.some.inj ended ▸ member

theorem of_unwound {before after : Session} {workflowId : String} {outcome : Except String Unit}
    (history : workflow.History before.log started delivered) (member : workflowId ∈ started)
    (running : ¬ Ended before.log workflowId)
    (unwound : Unwound workflowId before outcome after) :
    workflow.History after.log started delivered := by
  cases unwound with
  | threw touches => exact (history.of_touches running touches).1
  | returned touches _ _ => exact (history.of_touches running touches).1
  | completed touches _ _ => exact (history.of_touches running touches).1.finish member rfl

/-- Moving a running execution on and publishing the next message keeps the history sound, if the
step before that message was run and has published nothing yet. -/
theorem advance {ranSession : Session} {workflowId : String} {row : WorkflowState} {index : Nat}
    {step next : Step} (history : workflow.History ranSession.log started delivered)
    (distinct : workflow.DistinctNames) (named : workflowId ≠ "")
    (runnable : workflow.Runnable row index step) (next_at : workflow.steps[index + 1]? = some next)
    (runs : (workflowId, row.current) ∈ executions ranSession.log)
    (first : ∀ earlier ∈ publications ranSession.log, earlier.workflowId = workflowId →
      earlier.previous ≠ row.current) (result : Option Json) :
    workflow.History
      (published (moved ranSession workflowId row result next)
        (workflow.stepMessage workflowId row.current result next)).log started delivered := by
  have moves : workflow.History (ranSession.log ++ [.updateCurrentStep workflowId next.name,
      .emit "workflow_send"]) started delivered := by
    refine history.append ?_ ?_ ?_ ?_ <;>
      simp [Call.publication, Call.execution, Call.ended, Call.ranFor]
  have sends : workflow.History ((ranSession.log ++ [.updateCurrentStep workflowId next.name,
      .emit "workflow_send"]) ++ [.send (workflow.stepMessage workflowId row.current result
        next)]) started delivered := by
    refine moves.send distinct named ?_ ?_ ?_
    · simpa [Call.execution, stepMessage] using runs
    · exact ⟨index, step, next, runnable.at_index, next_at, runnable.name, rfl⟩
    · intro earlier published owner
      exact first earlier (by simpa [Call.publication] using published) owner
  have notifies := @append workflow _ [.emit "workflow_publish_success"] started delivered
    sends (by simp [Call.publication, Call.execution]) (by simp) (by simp [Call.ranFor])
    (by simp [Call.ended])
  simpa [published, moved] using notifies

/-- Handling a message of a running execution keeps the history sound, if the step that may be run
was not run before and is justified. -/
theorem of_handled {before after : Session} {workflowId : String} {payload : Fields}
    {row : WorkflowState} {outcome : Except String Unit}
    (history : workflow.History before.log started delivered) (distinct : workflow.DistinctNames)
    (member : workflowId ∈ started) (named : workflowId ≠ "")
    (running : ¬ Ended before.log workflowId)
    (entitled : ∀ position step, workflow.Runnable row position step →
      (workflowId, row.current) ∉ executions before.log ∧
        workflow.Justified before.log delivered workflowId row.current payload)
    (handled : Handled workflow workflowId payload row before outcome after) :
    workflow.History after.log started delivered := by
  have ran : ∀ position step, workflow.Runnable row position step →
      workflow.History (called before workflowId row payload).log started delivered ∧
        ¬ Ended (called before workflowId row payload).log workflowId := by
    intro position step runnable
    obtain ⟨new, justified⟩ := entitled position step runnable
    refine ⟨history.execute new member running justified, ?_⟩
    exact mt (ended_append_iff (by simp [Call.ended])).mp running
  cases handled with
  | rejected unwound => exact history.of_unwound member running unwound
  | failed runnable unwound =>
      obtain ⟨history, running⟩ := ran _ _ runnable
      exact history.of_unwound member running unwound
  | @advanced index step next result ranSession runnable next_at resolved touches =>
      obtain ⟨new, -⟩ := entitled _ _ runnable
      obtain ⟨called_history, called_running⟩ := ran _ _ runnable
      obtain ⟨ran_history, ran_running⟩ := called_history.of_touches called_running touches
      have runs : (workflowId, row.current) ∈ executions ranSession.log := by
        rw [touches.executions_eq]
        simp [called, Call.execution]
      have publishes : publications ranSession.log = publications before.log := by
        rw [touches.publications_eq]
        simp [called, Call.publication]
      refine ran_history.advance distinct named runnable next_at runs ?_ result
      intro earlier published owner same
      rw [publishes] at published
      obtain ⟨-, ran, -⟩ := history.linked earlier published
      rw [owner, same] at ran
      exact new ran
  | finished runnable last resolved touches =>
      obtain ⟨called_history, called_running⟩ := ran _ _ runnable
      obtain ⟨ran_history, -⟩ := called_history.of_touches called_running touches
      rw [Workflow.finished]
      split
      · exact ran_history.finish member rfl
      · exact ran_history.finish member rfl

theorem emit (history : workflow.History log started delivered) (event : String) :
    workflow.History (log ++ [.emit event]) started delivered := by
  refine history.append ?_ ?_ ?_ ?_ <;>
    simp [Call.publication, Call.execution, Call.ended, Call.ranFor]

/-- Handling the first message of an execution keeps the history sound. -/
theorem of_begun {session after : Session} {workflowId : String} {payload : Fields}
    {firstStep : Step} {outcome : Except String Unit}
    (history : workflow.History session.log started delivered) (distinct : workflow.DistinctNames)
    (first : workflow.steps[0]? = some firstStep) (member : workflowId ∈ started)
    (named : workflowId ≠ "") (unrun : ∀ step, (workflowId, step) ∉ executions session.log)
    (running : ¬ Ended session.log workflowId)
    (handled : Handled workflow workflowId payload
      (workflow.initialRow workflowId firstStep payload)
      (workflow.begun session workflowId firstStep payload) outcome after) :
    workflow.History after.log started delivered := by
  have begun : workflow.History (workflow.begun session workflowId firstStep payload).log
      started delivered := by
    rw [begun_log]
    refine history.append ?_ ?_ ?_ ?_ <;>
      simp [Call.publication, Call.execution, Call.ended, Call.ranFor]
  refine begun.of_handled distinct member named (fun ended => running (ended_of_begun ended))
    (fun position step runnable => ?_) handled
  refine ⟨fun ran => unrun firstStep.name ?_, .inl ⟨firstStep, first, rfl, ?_⟩⟩
  · simpa [begun_log, initialRow, Call.execution] using ran
  · rw [begun_log]
    simp

/-- Handling a published message keeps the history sound, if the step that it may run is the one
for which it was published and has not been run. -/
theorem of_resumed {session after : Session} {row : WorkflowState} {index : Nat}
    {message : Published} {outcome : Except String Unit}
    (history : workflow.History session.log started delivered) (distinct : workflow.DistinctNames)
    (found : (publications session.log)[index]? = some message) (arrived : index ∈ delivered)
    (running : ¬ Ended session.log message.workflowId)
    (entitled : ∀ position step, workflow.Runnable row position step →
      message.step = row.current ∧ (message.workflowId, message.step) ∉ executions session.log)
    (handled : Handled workflow message.workflowId message.payload row
      (resumed session message.workflowId) outcome after) :
    workflow.History after.log started delivered := by
  obtain ⟨named, ran, -⟩ := history.linked message (List.mem_of_getElem? found)
  refine (history.resumes message.workflowId).of_handled distinct (history.known _ _ ran) named
    (fun ended => running (ended_of_resumed ended)) (fun position step runnable => ?_) handled
  obtain ⟨current, unrun⟩ := entitled position step runnable
  rw [current] at unrun
  refine ⟨?_, .inr ⟨index, message, ?_, arrived, rfl, current, rfl⟩⟩
  · simpa [resumed_log, Call.execution] using unrun
  · simpa [resumed_log, Call.publication] using found

end History

end Workflow

end Steveo
