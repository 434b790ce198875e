import Mathlib.Data.List.Nodup
import Steveo.Workflow.Engine

/-!
# What handling one message does to an execution

The engine's functions are summarised by their effects on the rows and on the log of calls.
-/

namespace Steveo

open Steveo.Action Engine

namespace Workflow

/-! ## Positions of steps -/

/-- No two steps have the same name. -/
def DistinctNames (workflow : Workflow) : Prop :=
  (workflow.steps.map Step.name).Nodup

theorem DistinctNames.eq_of_name_eq {workflow : Workflow} (distinct : workflow.DistinctNames)
    {left right : Nat} {leftStep rightStep : Step} (leftAt : workflow.steps[left]? = some leftStep)
    (rightAt : workflow.steps[right]? = some rightStep) (same : leftStep.name = rightStep.name) :
    left = right := by
  obtain ⟨leftBound, rfl⟩ := List.getElem?_eq_some_iff.mp leftAt
  have leftName : (workflow.steps.map Step.name)[left]? = some workflow.steps[left].name := by
    simp [leftAt]
  have rightName : (workflow.steps.map Step.name)[right]? = some workflow.steps[left].name := by
    simp [rightAt, same]
  exact (List.getElem?_inj (by simpa using leftBound) distinct).mp
    (leftName.trans rightName.symm)

/-- A step is the first one with its name. -/
structure FirstNamed (workflow : Workflow) (index : Nat) (step : Step) : Prop where
  at_index : workflow.steps[index]? = some step
  earliest : ∀ earlier < index, ∀ earlierStep, workflow.steps[earlier]? = some earlierStep →
    earlierStep.name ≠ step.name

theorem DistinctNames.firstNamed {workflow : Workflow} (distinct : workflow.DistinctNames)
    {index : Nat} {step : Step} (at_index : workflow.steps[index]? = some step) :
    workflow.FirstNamed index step where
  at_index := at_index
  earliest := by
    intro earlier before earlierStep found same
    have equal := distinct.eq_of_name_eq found at_index same
    omega

namespace FirstNamed

variable {workflow : Workflow} {index : Nat} {step : Step}

theorem bound (first : workflow.FirstNamed index step) : index < workflow.steps.length :=
  (List.getElem?_eq_some_iff.mp first.at_index).1

/-- No earlier step answers to the name. -/
theorem unnamed (first : workflow.FirstNamed index step) {earlier : Nat}
    (inside : earlier < workflow.steps.length) (before : earlier < index) :
    (workflow.steps[earlier].name == step.name) = false := by
  rw [beq_eq_false_iff_ne]
  exact first.earliest earlier before _ (List.getElem?_eq_getElem _)

theorem findIdx_name (first : workflow.FirstNamed index step) :
    workflow.steps.findIdx (fun candidate => candidate.name == step.name) = index := by
  obtain ⟨bound, at_index⟩ := List.getElem?_eq_some_iff.mp first.at_index
  rw [List.findIdx_eq bound]
  exact ⟨by simp [at_index], fun earlier before => first.unnamed _ before⟩

theorem getStepIndex (first : workflow.FirstNamed index step) :
    workflow.getStepIndex step.name = some index := by
  rw [Workflow.getStepIndex, List.findIdx?_eq_some_iff_findIdx_eq]
  exact ⟨first.bound, first.findIdx_name⟩

theorem find_name (first : workflow.FirstNamed index step) :
    workflow.steps.find? (fun candidate => candidate.name == step.name) = some step := by
  obtain ⟨bound, at_index⟩ := List.getElem?_eq_some_iff.mp first.at_index
  rw [List.find?_eq_some_iff_getElem]
  refine ⟨by simp, index, bound, at_index, fun earlier before => ?_⟩
  simp [first.unnamed _ before]

theorem getNextStep (first : workflow.FirstNamed index step) :
    workflow.getNextStep step.name = pure workflow.steps[index + 1]? := by
  rw [Workflow.getNextStep, first.getStepIndex]

/-- The ordering check of the step at an index looks at the results two positions and more
before it. -/
theorem expectedOrder_iff (first : workflow.FirstNamed index step) (state : WorkflowState) :
    workflow.expectedOrder step state = true ↔
      ∀ earlier earlierStep, workflow.steps[earlier]? = some earlierStep → earlier + 1 < index →
        state.hasResult earlierStep.name = true := by
  have bound := first.bound
  rw [expectedOrder, first.findIdx_name]
  by_cases later : index > 0
  · simp only [later, if_true, List.all_eq_true]
    constructor
    · intro all earlier earlierStep found before
      apply all
      rw [List.mem_take_iff_getElem]
      obtain ⟨inside, equal⟩ := List.getElem?_eq_some_iff.mp found
      exact ⟨earlier, by omega, equal⟩
    · intro all earlierStep member
      obtain ⟨earlier, inside, equal⟩ := List.mem_take_iff_getElem.mp member
      exact all earlier earlierStep (List.getElem?_eq_some_iff.mpr ⟨by omega, equal⟩) (by omega)
  · obtain rfl : index = 0 := by omega
    simp

end FirstNamed

end Workflow

/-! ## Effects of a rollback -/

section Effects

variable {relation : Session → Session → Prop}

theorem getPreviousStep_preserves (effects : EffectRelation relation) (workflow : Workflow)
    (stepName : String) : Preserves relation (workflow.getPreviousStep stepName) := by
  rw [Workflow.getPreviousStep]
  split
  · exact effects.throw _
  · exact effects.pure _
  · exact effects.pure _

/-- Changing a row has the effects that the change has on a row that exists. -/
theorem update_preserves (effects : EffectRelation relation) {workflowId : String}
    {change : WorkflowState → WorkflowState}
    (changes : ∀ session row, session.table workflowId = some row →
      relation session (session.stored workflowId (some (change row)))) :
    Preserves relation (WorkflowRepository.update workflowId change) := by
  intro session
  cases found : session.table workflowId with
  | none =>
      rw [WorkflowRepository.update, exec_bind_ok (exec_get session), found]
      exact effects.refl session
  | some row =>
      rw [WorkflowRepository.exec_update session found]
      exact changes session row found

/-- Preparing an execution has the effects that the creation of its row has. -/
theorem initialise_preserves (effects : EffectRelation relation) (workflow : Workflow)
    {workflowId : String} {payload : Fields}
    (creates : ∀ serviceId current, Preserves relation
      (WorkflowRepository.workflowInit workflowId serviceId current payload)) :
    Preserves relation (workflow.initialise workflowId payload) := by
  rw [Workflow.initialise]
  split
  · exact effects.pure ()
  · split
    · exact effects.throw _
    · exact creates _ _

/-- A rollback has the effects that its rounds and the recording of an error have. -/
theorem rollbackLoop_preserves (effects : EffectRelation relation) {workflow : Workflow}
    {context : ExecuteContext} (round : Preserves relation (workflow.rollbackRound context))
    (stores : ∀ thrown, Preserves relation
      (WorkflowRepository.storeExecuteError context.workflowId context.state.current thrown))
    (rounds : Nat) (cursor : Option Step) :
    Preserves relation (workflow.rollbackLoop context rounds cursor) := by
  have guarded : Preserves relation (workflow.guardedRound context) := by
    refine effects.bind (EffectRelation.attempt round) fun outcome => ?_
    cases outcome with
    | ok _ => exact effects.pure ()
    | error thrown => exact effects.bind (stores thrown) fun _ => effects.throw thrown
  induction rounds generalizing cursor with
  | zero => cases cursor <;> exact effects.pure ()
  | succ rounds induction =>
      cases cursor with
      | none => exact effects.pure ()
      | some current =>
          exact effects.bind guarded fun _ =>
            effects.bind (getPreviousStep_preserves effects workflow _) fun cursor =>
              induction cursor

end Effects

/-! ## Calls that run nothing forward -/

/-- The calls on behalf of one execution that neither run a step nor publish, create, complete or
delete anything. -/
def Call.Idle (workflowId : String) : Call → Prop
  | .rollback owner _ | .rollbackStepExecute owner _ | .storeExecuteError owner _ _
  | .updateCurrentStep owner _ | .storeStepResult owner _ _ => owner = workflowId
  | .emit _ => True
  | _ => False

/-- Effects confined to idle calls and to the row of one execution, which they neither complete
nor relieve of a recorded failure. -/
structure Touches (workflowId : String) (before after : Session) : Prop where
  log : ∃ calls, after.log = before.log ++ calls ∧ ∀ call ∈ calls, call.Idle workflowId
  tick : before.tick ≤ after.tick
  others : ∀ other, other ≠ workflowId → after.table other = before.table other
  row : ∀ row, before.table workflowId = some row →
    ∃ changed, after.table workflowId = some changed ∧
      (row.errorList ≠ [] → changed.errorList ≠ []) ∧ changed.completed = row.completed

namespace Touches

theorem effects (workflowId : String) : EffectRelation (Touches workflowId) where
  refl session := ⟨⟨[], by simp⟩, le_rfl, fun _ _ => rfl, fun row found => ⟨row, found, id, rfl⟩⟩
  trans := by
    rintro before middle after ⟨⟨calls, log, idle⟩, tick, others, row⟩
      ⟨⟨calls', log', idle'⟩, tick', others', row'⟩
    refine ⟨⟨calls ++ calls', by rw [log', log, List.append_assoc], ?_⟩, tick.trans tick',
      fun other different => (others' other different).trans (others other different), ?_⟩
    · intro call member
      rcases List.mem_append.mp member with earlier | later
      · exact idle call earlier
      · exact idle' call later
    · intro stored found
      obtain ⟨changed, found', failed, completed⟩ := row stored found
      obtain ⟨changed', found'', failed', completed'⟩ := row' changed found'
      exact ⟨changed', found'', fun failure => failed' (failed failure),
        completed'.trans completed⟩

theorem record {workflowId : String} {call : Call} (idle : call.Idle workflowId) :
    Preserves (Touches workflowId) (Engine.record call) := by
  intro session
  refine ⟨⟨[call], rfl, by simpa using idle⟩, le_rfl, fun _ _ => rfl, fun row found => ?_⟩
  exact ⟨row, found, id, rfl⟩

theorem emit (workflowId event : String) :
    Preserves (Touches workflowId) (Engine.emit event) :=
  record trivial

theorem outside {α : Type} (workflowId : String) (answer : Nat → α) :
    Preserves (Touches workflowId) (Engine.outside answer) := by
  intro session
  refine ⟨⟨[], by simp⟩, Nat.le_succ _, fun _ _ => rfl, fun row found => ⟨row, found, id, rfl⟩⟩

theorem update {workflowId : String} {change : WorkflowState → WorkflowState}
    (kept : ∀ row : WorkflowState, (row.errorList ≠ [] → (change row).errorList ≠ []) ∧
      (change row).completed = row.completed) :
    Preserves (Touches workflowId) (WorkflowRepository.update workflowId change) := by
  refine update_preserves (effects workflowId) fun session row found => ?_
  refine ⟨⟨[], by simp⟩, le_rfl, fun other different => ?_, fun stored stored_eq => ?_⟩
  · simp [Function.update_of_ne different]
  · obtain rfl : row = stored := Option.some.inj (found.symm.trans stored_eq)
    exact ⟨change row, by simp, kept row⟩

theorem storeExecuteError (workflowId identifier error : String) :
    Preserves (Touches workflowId)
      (WorkflowRepository.storeExecuteError workflowId identifier error) :=
  (effects workflowId).bind (record rfl) fun _ => update fun row => ⟨fun _ => by simp, rfl⟩

theorem rollbackStepExecute (workflowId nextStep : String) :
    Preserves (Touches workflowId)
      (WorkflowRepository.rollbackStepExecute workflowId nextStep) :=
  (effects workflowId).bind (record rfl) fun _ => update fun _ => ⟨id, rfl⟩

theorem updateCurrentStep (workflowId stepName : String) :
    Preserves (Touches workflowId)
      (WorkflowRepository.updateCurrentStep workflowId stepName) :=
  (effects workflowId).bind (record rfl) fun _ => update fun _ => ⟨id, rfl⟩

theorem storeStepResult (workflowId nextStep : String) (result : Option Json) :
    Preserves (Touches workflowId)
      (WorkflowRepository.storeStepResult workflowId nextStep result) :=
  (effects workflowId).bind (record rfl) fun _ => update fun _ => ⟨id, rfl⟩

theorem callRollback (workflowId : String) (step : Step) (state : WorkflowState) :
    Preserves (Touches workflowId) (Workflow.callRollback workflowId step state) := by
  rw [Workflow.callRollback]
  cases step.rollback with
  | none => exact (effects workflowId).pure ()
  | some rollback =>
      exact (effects workflowId).bind (record rfl) fun _ =>
        (effects workflowId).bind (outside workflowId _) fun _ => (effects workflowId).ofExcept _

end Touches

/-! ## Rolling back -/

/-- How the rollback of a failed execution ends: it throws, it returns with the failure on record,
or it completes the execution with its last call. -/
inductive Unwound (workflowId : String) (before : Session) : Except String Unit → Session → Prop
  | threw {thrown : String} {after : Session} (touches : Touches workflowId before after) :
      Unwound workflowId before (.error thrown) after
  | returned {after : Session} {row : WorkflowState} (touches : Touches workflowId before after)
      (found : after.table workflowId = some row) (failed : row.errorList ≠ []) :
      Unwound workflowId before (.ok ()) after
  | completed {middle : Session} {row : WorkflowState}
      (touches : Touches workflowId before middle) (found : middle.table workflowId = some row)
      (failed : row.errorList ≠ []) :
      Unwound workflowId before (.ok ())
        ((middle.logged (.updateWorkflowCompleted workflowId)).stored workflowId
          (some { row with completed := true }))

theorem Unwound.of_touches {workflowId : String} {before middle after : Session}
    {outcome : Except String Unit} (touches : Touches workflowId before middle)
    (unwound : Unwound workflowId middle outcome after) :
    Unwound workflowId before outcome after := by
  cases unwound with
  | threw later => exact .threw ((Touches.effects workflowId).trans touches later)
  | returned later found failed =>
      exact .returned ((Touches.effects workflowId).trans touches later) found failed
  | completed later found failed =>
      exact .completed ((Touches.effects workflowId).trans touches later) found failed

namespace Workflow

variable {workflow : Workflow}

theorem DistinctNames.getPreviousStep_zero (distinct : workflow.DistinctNames) {step : Step}
    (first : workflow.steps[0]? = some step) :
    workflow.getPreviousStep step.name = pure none := by
  rw [getPreviousStep, (distinct.firstNamed first).getStepIndex]

theorem DistinctNames.getPreviousStep_succ (distinct : workflow.DistinctNames) {index : Nat}
    {step : Step} (at_index : workflow.steps[index + 1]? = some step) :
    workflow.getPreviousStep step.name = pure workflow.steps[index]? := by
  rw [getPreviousStep, (distinct.firstNamed at_index).getStepIndex]

theorem rollbackRound_first (distinct : workflow.DistinctNames) {context : ExecuteContext}
    (first : workflow.steps[0]? = some context.step) :
    workflow.rollbackRound context =
      callRollback context.workflowId context.step context.state >>= fun _ =>
        WorkflowRepository.updateWorkflowCompleted context.workflowId := by
  rw [rollbackRound, distinct.getPreviousStep_zero first]
  simp only [pure_bind]

theorem rollbackRound_later (distinct : workflow.DistinctNames) {context : ExecuteContext}
    {index : Nat} {previous : Step} (at_index : workflow.steps[index + 1]? = some context.step)
    (before : workflow.steps[index]? = some previous) :
    workflow.rollbackRound context =
      callRollback context.workflowId context.step context.state >>= fun _ =>
        WorkflowRepository.rollbackStepExecute context.workflowId previous.name := by
  rw [rollbackRound, distinct.getPreviousStep_succ at_index, before]
  simp only [pure_bind]

/-- Past the first step no round of the loop completes the execution. -/
theorem rollbackLoop_later (distinct : workflow.DistinctNames) {context : ExecuteContext}
    {index : Nat} (at_index : workflow.steps[index + 1]? = some context.step) (rounds : Nat)
    (cursor : Option Step) :
    Preserves (Touches context.workflowId) (workflow.rollbackLoop context rounds cursor) := by
  have effects := Touches.effects context.workflowId
  obtain ⟨bound, _⟩ := List.getElem?_eq_some_iff.mp at_index
  have previous : workflow.steps[index]? = some workflow.steps[index] :=
    List.getElem?_eq_getElem (by omega)
  have round : Preserves (Touches context.workflowId) (workflow.rollbackRound context) := by
    rw [rollbackRound_later distinct at_index previous]
    exact effects.bind (.callRollback _ _ _) fun _ => .rollbackStepExecute _ _
  exact rollbackLoop_preserves effects round (fun _ => .storeExecuteError _ _ _) rounds cursor

/-- The single round of a rollback at the first step. -/
theorem executeRollback_first (distinct : workflow.DistinctNames) {context : ExecuteContext}
    (first : workflow.steps[0]? = some context.step) :
    workflow.executeRollback context = workflow.guardedRound context >>= fun _ => pure () := by
  obtain ⟨bound, _⟩ := List.getElem?_eq_some_iff.mp first
  obtain ⟨rounds, length_eq⟩ := Nat.exists_eq_succ_of_ne_zero (Nat.ne_of_gt bound)
  rw [executeRollback, length_eq, rollbackLoop, distinct.getPreviousStep_zero first]
  congr 1
  funext _
  cases rounds <;> simp only [pure_bind, rollbackLoop]

/-- Every rollback of an execution whose failure is on record ends in one of the three ways. -/
theorem executeRollback_unwound (distinct : workflow.DistinctNames) (context : ExecuteContext)
    {index : Nat} (at_index : workflow.steps[index]? = some context.step) {session : Session}
    {row : WorkflowState} (found : session.table context.workflowId = some row)
    (failed : row.errorList ≠ []) :
    Unwound context.workflowId session (exec (workflow.executeRollback context) session).1
      (exec (workflow.executeRollback context) session).2 := by
  cases index with
  | succ index =>
      have touches := rollbackLoop_later distinct at_index workflow.steps.length
        (some context.step) session
      obtain ⟨changed, found', kept, -⟩ := touches.row row found
      rw [executeRollback]
      cases outcome : (exec (workflow.rollbackLoop context workflow.steps.length
          (some context.step)) session).1 with
      | ok _ => exact .returned touches found' (kept failed)
      | error thrown => exact .threw touches
  | zero =>
      rw [executeRollback_first distinct at_index, guardedRound,
        rollbackRound_first distinct at_index]
      have called := Touches.callRollback context.workflowId context.step context.state session
      rcases result : exec (callRollback context.workflowId context.step context.state) session
        with ⟨outcome, middle⟩
      rw [result] at called
      obtain ⟨changed, found', kept, -⟩ := called.row row found
      cases outcome with
      | ok _ =>
          have completes := WorkflowRepository.exec_updateWorkflowCompleted middle found'
          simp only [exec_bind, exec_attempt, result, completes, exec_pure]
          exact .completed called found' (kept failed)
      | error thrown =>
          have stores := Touches.storeExecuteError context.workflowId context.state.current
            thrown middle
          rcases stored : exec (WorkflowRepository.storeExecuteError context.workflowId
            context.state.current thrown) middle with ⟨outcome, after⟩
          rw [stored] at stores
          have touches := (Touches.effects context.workflowId).trans called stores
          simp only [exec_bind, exec_attempt, result, stored]
          cases outcome with
          | ok _ => exact .threw touches
          | error thrown => exact .threw touches

/-! ## Running a step -/

theorem failStep_unwound (distinct : workflow.DistinctNames) (context : ExecuteContext)
    {index : Nat} (at_index : workflow.steps[index]? = some context.step) (session : Session)
    {row : WorkflowState} (found : session.table context.workflowId = some row)
    (thrown : String) :
    Unwound context.workflowId session (exec (workflow.failStep context thrown) session).1
      (exec (workflow.failStep context thrown) session).2 := by
  have effects := Touches.effects context.workflowId
  have emits : Touches context.workflowId session
      (session.logged (.emit "workflow_step_failure")) := Touches.emit _ _ session
  have stores := WorkflowRepository.exec_storeExecuteError
    (session.logged (.emit "workflow_step_failure")) found context.state.current thrown
  have touches := Touches.storeExecuteError context.workflowId context.state.current thrown
    (session.logged (.emit "workflow_step_failure"))
  rw [stores] at touches
  rw [failStep, exec_bind_ok (exec_emit _ _), exec_bind_ok stores]
  have recorded : (((session.logged (.emit "workflow_step_failure")).logged
      (.storeExecuteError context.workflowId context.state.current thrown)).stored
      context.workflowId (some (row.withError context.state.current thrown))).table
      context.workflowId = some (row.withError context.state.current thrown) := by simp
  exact .of_touches (effects.trans emits touches)
    (executeRollback_unwound distinct context at_index recorded (by simp))

/-- The session after a message was handed to the producer. -/
def published (session : Session) (message : Published) : Session :=
  ((session.ticked.ticked.logged (.emit "workflow_send")).logged (.send message)).logged
    (.emit "workflow_publish_success")

theorem exec_publishInternal {session : Session} {message : Published}
    (ready : workflow.host.initializeTopic session.tick message.topic = .ok ())
    (sent : workflow.host.send (session.tick + 1) message.topic message.payload = .ok ()) :
    exec (workflow.publishInternal message) session = (.ok (), published session message) := by
  simp only [publishInternal, sendMessage, exec_bind, exec_attempt, exec_outside, ready, sent,
    exec_ofExcept_ok, exec_emit, exec_record, Session.ticked_tick, exec_pure, published]

/-- Publishing either hands the message over or throws without having done so. -/
theorem publishInternal_cases (workflow : Workflow) (workflowId : String) (message : Published)
    (session : Session) :
    exec (workflow.publishInternal message) session = (.ok (), published session message) ∨
      ∃ thrown after, exec (workflow.publishInternal message) session = (.error thrown, after) ∧
        Touches workflowId session after := by
  have effects := Touches.effects workflowId
  have ticks : Touches workflowId session session.ticked :=
    Touches.outside workflowId (fun _ => ()) session
  have ticksTwice : Touches workflowId session session.ticked.ticked :=
    effects.trans ticks (Touches.outside workflowId (fun _ => ()) session.ticked)
  cases ready : workflow.host.initializeTopic session.tick message.topic with
  | error thrown =>
      refine .inr ⟨thrown, session.ticked.logged (.emit "workflow_publish_failure"), ?_, ?_⟩
      · simp only [publishInternal, exec_bind, exec_attempt, exec_outside, ready,
          exec_ofExcept_error, exec_emit, exec_throw]
      · exact effects.trans ticks (Touches.emit _ _ _)
  | ok _ =>
      cases sent : workflow.host.send (session.tick + 1) message.topic message.payload with
      | ok _ => exact .inl (exec_publishInternal ready sent)
      | error thrown =>
          refine .inr ⟨thrown, (session.ticked.ticked.logged (.emit "workflow_send")).logged
            (.emit "workflow_publish_failure"), ?_, ?_⟩
          · simp only [publishInternal, sendMessage, exec_bind, exec_attempt, exec_outside, ready,
              sent, exec_ofExcept_ok, exec_ofExcept_error, exec_emit, exec_throw,
              Session.ticked_tick]
          · exact effects.trans ticksTwice
              (effects.trans (Touches.emit _ _ _) (Touches.emit _ _ _))

theorem exec_callExecute (context : ExecuteContext) (session : Session) :
    exec (callExecute context) session =
      (context.step.execute session.tick context.payload,
        (session.logged (.execute context.workflowId context.step.name context.payload)).ticked) :=
    by
  cases resolved : context.step.execute session.tick context.payload with
  | ok result =>
      simp only [callExecute, exec_bind, exec_record, exec_outside, Session.logged_tick, resolved,
        exec_ofExcept_ok]
  | error thrown =>
      simp only [callExecute, exec_bind, exec_record, exec_outside, Session.logged_tick, resolved,
        exec_ofExcept_error]

/-- The row after the result of its current step was stored. -/
def ranRow (row : WorkflowState) (result : Option Json) : WorkflowState :=
  { row.withResult row.current result with current := row.current }

/-- The session after a step was run and its result stored. -/
def ran (session : Session) (context : ExecuteContext) (result : Option Json) : Session :=
  (((session.logged (.execute context.workflowId context.step.name context.payload)).ticked).logged
    (.storeStepResult context.workflowId context.state.current result)).stored context.workflowId
    (some (ranRow context.state result))

theorem exec_runStep (context : ExecuteContext) {session : Session} {result : Option Json}
    (found : session.table context.workflowId = some context.state)
    (same : context.state.serviceId = workflow.options.serviceId)
    (ordered : workflow.expectedOrder context.step context.state = true)
    (resolved : context.step.execute session.tick context.payload = .ok result) :
    exec (workflow.runStep context) session = (.ok result, ran session context result) := by
  have stores := WorkflowRepository.exec_storeStepResult
    (session.logged (.execute context.workflowId context.step.name context.payload)).ticked
    found context.state.current result
  simp only [runStep, same, beq_self_eq_true, ordered, exec_bind, exec_ensure_true,
    exec_callExecute, resolved, stores, exec_pure]
  rfl

theorem exec_runStep_thrown (context : ExecuteContext) {session : Session} {thrown : String}
    (same : context.state.serviceId = workflow.options.serviceId)
    (ordered : workflow.expectedOrder context.step context.state = true)
    (threw : context.step.execute session.tick context.payload = .error thrown) :
    exec (workflow.runStep context) session =
      (.error thrown,
        (session.logged (.execute context.workflowId context.step.name context.payload)).ticked) :=
    by
  simp only [runStep, same, beq_self_eq_true, ordered, exec_bind, exec_ensure_true,
    exec_callExecute, threw]

theorem exec_runStep_rejected (context : ExecuteContext) (session : Session)
    (rejected : context.state.serviceId ≠ workflow.options.serviceId ∨
      workflow.expectedOrder context.step context.state = false) :
    ∃ thrown, exec (workflow.runStep context) session = (.error thrown, session) := by
  by_cases same : context.state.serviceId = workflow.options.serviceId
  · have unordered := rejected.resolve_left (not_not.mpr same)
    simp only [runStep, same, beq_self_eq_true, unordered, exec_bind, exec_ensure_true,
      exec_ensure_false, Prod.mk.injEq, Except.error.injEq, and_true, exists_eq']
  · have different : (context.state.serviceId == workflow.options.serviceId) = false := by
      simpa using same
    simp only [runStep, different, exec_bind, exec_ensure_false, Prod.mk.injEq,
      Except.error.injEq, and_true, exists_eq']

/-! ## Handling a message -/

/-- The current step of a row may run: the row records no failure and passes the checks. -/
structure Runnable (workflow : Workflow) (row : WorkflowState) (index : Nat) (step : Step) :
    Prop where
  at_index : workflow.steps[index]? = some step
  name : step.name = row.current
  named : step.name ≠ ""
  clean : row.errorList = []
  service : row.serviceId = workflow.options.serviceId
  ordered : workflow.expectedOrder step row = true

/-- The session right after the function of the current step was called. -/
def called (session : Session) (workflowId : String) (row : WorkflowState) (payload : Fields) :
    Session :=
  (session.logged (.execute workflowId row.current payload)).ticked

/-- The session after the execution was moved to its next step. -/
def moved (session : Session) (workflowId : String) (row : WorkflowState)
    (result : Option Json) (next : Step) : Session :=
  (session.logged (.updateCurrentStep workflowId next.name)).stored workflowId
    (some { ranRow row result with current := next.name })

/-- The session after the last step's result was stored and the execution finished. -/
def finished (workflow : Workflow) (session : Session) (workflowId : String) (row : WorkflowState)
    (result : Option Json) : Session :=
  if workflow.options.deleteOnComplete then
    (session.logged (.deleteWorkflow workflowId)).stored workflowId none
  else
    (session.logged (.updateWorkflowCompleted workflowId)).stored workflowId
      (some { ranRow row result with completed := true })

/-- Everything that handling one message can do to the execution it belongs to: roll back without
running a step, run the current step and roll back, run it and publish the next step's message, or
run it and finish. -/
inductive Handled (workflow : Workflow) (workflowId : String) (payload : Fields)
    (row : WorkflowState) (before : Session) : Except String Unit → Session → Prop
  | rejected {outcome : Except String Unit} {after : Session}
      (unwound : Unwound workflowId before outcome after) :
      Handled workflow workflowId payload row before outcome after
  | failed {index : Nat} {step : Step} {outcome : Except String Unit} {after : Session}
      (runnable : workflow.Runnable row index step)
      (unwound : Unwound workflowId (called before workflowId row payload) outcome after) :
      Handled workflow workflowId payload row before outcome after
  | advanced {index : Nat} {step next : Step} {result : Option Json} {ranSession : Session}
      (runnable : workflow.Runnable row index step)
      (next_at : workflow.steps[index + 1]? = some next)
      (resolved : step.execute before.tick payload = .ok result)
      (touches : Touches workflowId (called before workflowId row payload) ranSession) :
      Handled workflow workflowId payload row before (.ok ())
        (published (moved ranSession workflowId row result next)
          (workflow.stepMessage workflowId row.current result next))
  | finished {index : Nat} {step : Step} {result : Option Json} {ranSession : Session}
      (runnable : workflow.Runnable row index step)
      (last : workflow.steps[index + 1]? = none)
      (resolved : step.execute before.tick payload = .ok result)
      (touches : Touches workflowId (called before workflowId row payload) ranSession) :
      Handled workflow workflowId payload row before (.ok ())
        (workflow.finished ranSession workflowId row result)

theorem exec_publishNextStep_last {index : Nat} {step : Step}
    (first : workflow.FirstNamed index step) (last : workflow.steps[index + 1]? = none)
    {session : Session} {workflowId : String} {row : WorkflowState} {result : Option Json}
    (found : session.table workflowId = some (ranRow row result)) :
    exec (workflow.publishNextStep step.name workflowId result) session =
      (.ok (), workflow.finished session workflowId row result) := by
  rw [publishNextStep, first.getNextStep, last]
  simp only [pure_bind]
  cases deletes : workflow.options.deleteOnComplete with
  | true =>
      simp only [if_true, finished, deletes]
      exact WorkflowRepository.exec_deleteWorkflow session found
  | false =>
      simp only [Bool.false_eq_true, if_false, finished, deletes]
      exact WorkflowRepository.exec_updateWorkflowCompleted session found

theorem exec_publishNextStep_next {index : Nat} {step next : Step}
    (first : workflow.FirstNamed index step)
    (next_at : workflow.steps[index + 1]? = some next)
    {session : Session} {workflowId : String} {row : WorkflowState} {result : Option Json}
    (found : session.table workflowId = some (ranRow row result)) :
    exec (workflow.publishNextStep step.name workflowId result) session =
      exec (workflow.publishInternal (workflow.stepMessage workflowId step.name result next))
        (moved session workflowId row result next) := by
  rw [publishNextStep, first.getNextStep, next_at]
  simp only [pure_bind]
  rw [exec_bind_ok (WorkflowRepository.exec_updateCurrentStep session found next.name)]
  rfl

/-- Storing the result of a step that was called touches only its execution. -/
theorem touches_ran {workflowId : String} {payload : Fields} {row : WorkflowState} {step : Step}
    (name : step.name = row.current) {session : Session}
    (found : session.table workflowId = some row) (result : Option Json) :
    Touches workflowId (called session workflowId row payload)
      (ran session ⟨workflowId, payload, step, row⟩ result) := by
  have stores := Touches.storeStepResult workflowId row.current result
    (called session workflowId row payload)
  rw [WorkflowRepository.exec_storeStepResult _ (by simpa [called] using found)] at stores
  simpa [ran, ranRow, name, called] using stores

/-- Moving the execution to the next step touches only its row. -/
theorem touches_moved {workflowId : String} {row : WorkflowState} {result : Option Json}
    {session : Session} (found : session.table workflowId = some (ranRow row result))
    (next : Step) : Touches workflowId session (moved session workflowId row result next) := by
  have updates := Touches.updateCurrentStep workflowId next.name session
  rwa [WorkflowRepository.exec_updateCurrentStep _ found] at updates

/-- Running a step that resolves: the execution finishes, its next message is published, or the
publication fails and the execution is unwound. -/
theorem executeNextStep_resolved (distinct : workflow.DistinctNames) {workflowId : String}
    {payload : Fields} {row : WorkflowState} {index : Nat} {step : Step}
    (runnable : workflow.Runnable row index step) {session : Session}
    (found : session.table workflowId = some row) {result : Option Json}
    (resolved : step.execute session.tick payload = .ok result) :
    Handled workflow workflowId payload row session
      (exec (workflow.executeNextStep ⟨workflowId, payload, step, row⟩) session).1
      (exec (workflow.executeNextStep ⟨workflowId, payload, step, row⟩) session).2 := by
  have effects := Touches.effects workflowId
  let context : ExecuteContext := ⟨workflowId, payload, step, row⟩
  have runs := exec_runStep context found runnable.service runnable.ordered resolved
  have stored : (ran session context result).table workflowId = some (ranRow row result) := by
    simp [ran, context]
  have touches : Touches workflowId (called session workflowId row payload)
      (ran session context result) := touches_ran runnable.name found result
  rw [executeNextStep, exec_bind_ok (exec_attempt _ _), runs]
  cases next_at : workflow.steps[index + 1]? with
  | none =>
      have publishes :=
        exec_publishNextStep_last (distinct.firstNamed runnable.at_index) next_at stored
      rw [exec_bind_ok (exec_attempt _ _), publishes]
      exact .finished runnable next_at resolved touches
  | some next =>
      have publishes :=
        exec_publishNextStep_next (distinct.firstNamed runnable.at_index) next_at stored
      have moves := touches_moved stored next
      rw [exec_bind_ok (exec_attempt _ _), publishes]
      rcases publishInternal_cases workflow workflowId
          (workflow.stepMessage workflowId step.name result next)
          (moved (ran session context result) workflowId row result next) with
        sent | ⟨thrown, after, threw, quiet⟩
      · rw [sent, runnable.name]
        exact .advanced runnable next_at resolved touches
      · rw [threw]
        obtain ⟨changed, found', -⟩ :=
          quiet.row { ranRow row result with current := next.name } (by simp [moved])
        refine .failed runnable (.of_touches (effects.trans touches
          (effects.trans moves quiet)) ?_)
        exact failStep_unwound distinct
          { context with state := row.withResult row.current result } runnable.at_index after
          found' thrown

/-- Running the current step of a row, with everything that can go wrong. -/
theorem executeNextStep_handled (distinct : workflow.DistinctNames) {workflowId : String}
    {payload : Fields} {row : WorkflowState} {index : Nat} {step : Step}
    (at_index : workflow.steps[index]? = some step) (name : step.name = row.current)
    (named : step.name ≠ "") (clean : row.errorList = []) {session : Session}
    (found : session.table workflowId = some row) :
    Handled workflow workflowId payload row session
      (exec (workflow.executeNextStep ⟨workflowId, payload, step, row⟩) session).1
      (exec (workflow.executeNextStep ⟨workflowId, payload, step, row⟩) session).2 := by
  let context : ExecuteContext := ⟨workflowId, payload, step, row⟩
  by_cases accepted : row.serviceId = workflow.options.serviceId ∧
      workflow.expectedOrder step row = true
  · obtain ⟨same, ordered⟩ := accepted
    have runnable : workflow.Runnable row index step :=
      ⟨at_index, name, named, clean, same, ordered⟩
    cases resolved : step.execute session.tick payload with
    | error thrown =>
        have runs := exec_runStep_thrown context same ordered resolved
        rw [executeNextStep, exec_bind_ok (exec_attempt _ _), runs]
        refine .failed runnable ?_
        rw [called, ← name]
        exact failStep_unwound distinct context at_index
          (session.logged (.execute workflowId step.name payload)).ticked found thrown
    | ok result => exact executeNextStep_resolved distinct runnable found resolved
  · have rejected : row.serviceId ≠ workflow.options.serviceId ∨
        workflow.expectedOrder step row = false := by
      rw [not_and_or] at accepted
      simpa using accepted
    obtain ⟨thrown, runs⟩ := exec_runStep_rejected context session rejected
    rw [executeNextStep, exec_bind_ok (exec_attempt _ _), runs]
    exact .rejected (failStep_unwound distinct context at_index session found thrown)

theorem continueFrom_handled (distinct : workflow.DistinctNames) (workflowId : String)
    (payload : Fields) {row : WorkflowState} {session : Session}
    (found : session.table workflowId = some row) :
    Handled workflow workflowId payload row session
      (exec (workflow.continueFrom workflowId payload row) session).1
      (exec (workflow.continueFrom workflowId payload row) session).2 := by
  have effects := Touches.effects workflowId
  rw [continueFrom]
  by_cases named : row.current = ""
  · rw [show (row.current != "") = false by simp [named], exec_bind_error (exec_ensure_false _ _)]
    exact .rejected (.threw (effects.refl session))
  · rw [show (row.current != "") = true by simpa using named, exec_bind_ok (exec_ensure_true _ _)]
    cases current : workflow.steps.find? fun step => step.name == row.current with
    | none => exact .rejected (.threw (effects.refl session))
    | some step =>
        obtain ⟨same, index, bound, at_index, -⟩ := List.find?_eq_some_iff_getElem.mp current
        have name : step.name = row.current := by simpa using same
        have at_index : workflow.steps[index]? = some step :=
          List.getElem?_eq_some_iff.mpr ⟨bound, at_index⟩
        by_cases clean : row.errorList = []
        · simp only [clean, List.isEmpty_nil, if_true]
          exact executeNextStep_handled distinct at_index name (name ▸ named) clean found
        · have failed : row.errorList.isEmpty = false := by simpa using clean
          simp only [failed, Bool.false_eq_true, if_false]
          exact .rejected (executeRollback_unwound distinct ⟨workflowId, payload, step, row⟩
            at_index found clean)

/-! ## Transactions -/

/-- The session after a transaction, whose changes to the rows are kept only if it returned. -/
def settled (before : Session) (result : Except String Unit × Session) : Session :=
  match result.1 with
  | .ok _ => result.2.logged (.emit "workflow_step_success")
  | .error _ => { result.2 with table := before.table }.logged (.emit "workflow_step_failure")

/-- The session in which a loaded execution is continued. -/
def resumed (session : Session) (workflowId : String) : Session :=
  (session.logged .transaction).logged (.loadWorkflow workflowId)

/-- The row of a new execution. -/
def initialRow (workflow : Workflow) (workflowId : String) (firstStep : Step) (payload : Fields) :
    WorkflowState where
  workflowId := workflowId
  serviceId := workflow.options.serviceId
  completed := false
  current := firstStep.name
  initial := payload
  results := none
  errors := none

/-- The session after the row of a new execution was created. -/
def created (workflow : Workflow) (session : Session) (workflowId : String) (firstStep : Step)
    (payload : Fields) : Session :=
  ((session.logged .transaction).logged (.workflowInit workflowId payload)).stored workflowId
    (some (workflow.initialRow workflowId firstStep payload))

/-- The session in which a new execution is begun. -/
def begun (workflow : Workflow) (session : Session) (workflowId : String) (firstStep : Step)
    (payload : Fields) : Session :=
  (workflow.created session workflowId firstStep payload).logged (.loadWorkflow workflowId)

theorem begun_table (workflow : Workflow) (session : Session) (workflowId : String)
    (firstStep : Step) (payload : Fields) :
    (workflow.begun session workflowId firstStep payload).table workflowId =
      some (workflow.initialRow workflowId firstStep payload) := by
  simp [begun, created]

/-- The identifier that the next new execution gets. -/
def freshId (workflow : Workflow) (session : Session) : String :=
  workflow.name ++ "-" ++ workflow.host.v4 session.tick

theorem freshId_ne_empty (workflow : Workflow) (session : Session) :
    workflow.freshId session ≠ "" := by
  intro empty
  have lengths := congrArg String.length empty
  simp [freshId] at lengths

theorem exec_transaction {α : Type} (body : Engine α) (session : Session) :
    exec (transaction body) session =
      match exec body (session.logged .transaction) with
      | (.ok value, after) => (.ok value, after)
      | (.error thrown, after) => (.error thrown, { after with table := session.table }) := by
  rcases result : exec body (session.logged .transaction) with ⟨outcome, after⟩
  cases outcome with
  | ok value =>
      simp only [transaction, exec_bind, exec_record, exec_get, exec_attempt, result, exec_pure]
  | error thrown =>
      simp only [transaction, exec_bind, exec_record, exec_get, exec_attempt, result, exec_modify,
        exec_throw, Session.logged_table]

theorem exec_loadState {workflowId : String} (named : workflowId ≠ "") (session : Session)
    {row : WorkflowState} (found : session.table workflowId = some row) :
    exec (loadState workflowId) session = (.ok row, session.logged (.loadWorkflow workflowId)) := by
  have check : (workflowId != "") = true := by simpa using named
  simp only [loadState, check, exec_bind, exec_ensure_true, WorkflowRepository.exec_loadWorkflow,
    found, exec_pure]

/-- With a logger, handling a message is processing its payload in a transaction. -/
theorem subscribe_settled (steps : workflow.steps ≠ []) {payload : Fields} {identifier : Json}
    {session opened : Session}
    (identified : exec (workflow.executionId payload) session = (.ok identifier, opened)) :
    (exec (workflow.subscribe payload .logger) session).2 =
      settled opened
        (exec (workflow.processPayload identifier payload) (opened.logged .transaction)) := by
  have nonempty : workflow.steps.isEmpty = false := by simpa using steps
  rcases processed : exec (workflow.processPayload identifier payload)
    (opened.logged .transaction) with ⟨outcome, after⟩
  cases outcome with
  | ok _ =>
      simp only [subscribe, nonempty, Bool.not_false, exec_bind, exec_attempt, exec_ensure_true,
        identified, exec_pure, exec_transaction, LogArgument.child, LogArgument.call, processed,
        exec_emit, settled]
  | error thrown =>
      simp only [subscribe, nonempty, Bool.not_false, exec_bind, exec_attempt, exec_ensure_true,
        identified, exec_pure, exec_transaction, LogArgument.child, LogArgument.call, processed,
        LogArgument.error, exec_emit, exec_throw, settled]

theorem exec_executionId_named {payload : Fields} {workflowId : String}
    (carries : payload.get "workflowId" = some (.str workflowId)) (session : Session) :
    exec (workflow.executionId payload) session = (.ok (.str workflowId), session) := by
  rw [executionId, carries]
  rfl

theorem exec_initialise_named {payload : Fields} {workflowId : String}
    (carries : payload.get "workflowId" = some (.str workflowId)) (named : workflowId ≠ "")
    (session : Session) :
    exec (workflow.initialise workflowId payload) session = (.ok (), session) := by
  have carried : truthy (payload.get "workflowId") = true := by
    simpa [carries, truthy] using named
  rw [initialise, if_pos carried]
  rfl

/-- Processing a payload that names a stored execution. -/
theorem exec_processPayload_stored {payload : Fields} {workflowId : String}
    (carries : payload.get "workflowId" = some (.str workflowId)) (named : workflowId ≠ "")
    {session : Session} {row : WorkflowState} (found : session.table workflowId = some row) :
    exec (workflow.processPayload (.str workflowId) payload) (session.logged .transaction) =
      exec (workflow.continueFrom workflowId payload row) (resumed session workflowId) := by
  rw [processPayload, storageKey, exec_bind_ok (exec_pure _ _),
    exec_bind_ok (exec_initialise_named carries named _),
    exec_bind_ok (exec_loadState named (session.logged .transaction) found)]
  rfl

/-- Processing a payload that names no stored execution. -/
theorem exec_processPayload_absent {payload : Fields} {workflowId : String}
    (carries : payload.get "workflowId" = some (.str workflowId)) (named : workflowId ≠ "")
    {session : Session} (absent : session.table workflowId = none) :
    exec (workflow.processPayload (.str workflowId) payload) (session.logged .transaction) =
      (.error s!"Error: State was not found for workflowId {workflowId}",
        resumed session workflowId) := by
  have check : (workflowId != "") = true := by simpa using named
  have missing : exec (loadState workflowId) (session.logged .transaction) =
      (.error s!"Error: State was not found for workflowId {workflowId}",
        resumed session workflowId) := by
    simp only [loadState, check, exec_bind, exec_ensure_true,
      WorkflowRepository.exec_loadWorkflow, Session.logged_table, absent, exec_throw]
    rfl
  rw [processPayload, storageKey, exec_bind_ok (exec_pure _ _),
    exec_bind_ok (exec_initialise_named carries named _), exec_bind_error missing]

/-- Handling a message that names a stored execution. -/
theorem subscribe_stored {payload : Fields} {workflowId : String}
    (carries : payload.get "workflowId" = some (.str workflowId)) (named : workflowId ≠ "")
    (steps : workflow.steps ≠ []) {session : Session} {row : WorkflowState}
    (found : session.table workflowId = some row) :
    (exec (workflow.subscribe payload .logger) session).2 =
      settled session (exec (workflow.continueFrom workflowId payload row)
        (resumed session workflowId)) := by
  rw [subscribe_settled steps (exec_executionId_named carries session),
    exec_processPayload_stored carries named found]

/-- A message that names no stored execution has no effect but a failure notice. -/
theorem subscribe_absent {payload : Fields} {workflowId : String}
    (carries : payload.get "workflowId" = some (.str workflowId)) (named : workflowId ≠ "")
    (steps : workflow.steps ≠ []) {session : Session}
    (absent : session.table workflowId = none) :
    (exec (workflow.subscribe payload .logger) session).2 =
      (resumed session workflowId).logged (.emit "workflow_step_failure") := by
  rw [subscribe_settled steps (exec_executionId_named carries session),
    exec_processPayload_absent carries named absent]
  rfl

theorem exec_executionId_fresh {payload : Fields}
    (anonymous : nullish (payload.get "workflowId") = true) (session : Session) :
    exec (workflow.executionId payload) session =
      (.ok (.str (workflow.freshId session)), session.ticked) := by
  rcases carried : payload.get "workflowId" with _ | value
  · simp only [executionId, carried, exec_bind, exec_outside, exec_pure, freshId]
  · cases value with
    | null => simp only [executionId, carried, exec_bind, exec_outside, exec_pure, freshId]
    | _ => simp [carried, nullish] at anonymous

theorem truthy_of_nullish {value : Option Json} (absent : nullish value = true) :
    truthy value = false := by
  rcases value with _ | value
  · rfl
  · cases value with
    | null => rfl
    | _ => simp [nullish] at absent

/-- Processing a payload without an identifier creates an execution and begins it. -/
theorem exec_processPayload_begun {payload : Fields}
    (anonymous : nullish (payload.get "workflowId") = true) {firstStep : Step}
    (first : workflow.steps[0]? = some firstStep) {workflowId : String} (named : workflowId ≠ "")
    {session : Session} (unused : session.table workflowId = none) :
    exec (workflow.processPayload (.str workflowId) payload) (session.logged .transaction) =
      exec (workflow.continueFrom workflowId payload
          (workflow.initialRow workflowId firstStep payload))
        (workflow.begun session workflowId firstStep payload) := by
  have head : workflow.steps.head? = some firstStep := by rw [List.head?_eq_getElem?, first]
  have initialised : exec (workflow.initialise workflowId payload) (session.logged .transaction) =
      (.ok (), workflow.created session workflowId firstStep payload) := by
    rw [initialise, truthy_of_nullish anonymous, head]
    exact WorkflowRepository.exec_workflowInit (session.logged .transaction) unused
      workflow.options.serviceId firstStep.name payload
  have found : (workflow.created session workflowId firstStep payload).table workflowId =
      some (workflow.initialRow workflowId firstStep payload) := by
    simp [created]
  rw [processPayload, storageKey, exec_bind_ok (exec_pure _ _), exec_bind_ok initialised,
    exec_bind_ok (exec_loadState named _ found)]
  rfl

/-- Handling a message without an identifier starts a new execution. -/
theorem subscribe_begun {payload : Fields} (anonymous : nullish (payload.get "workflowId") = true)
    {firstStep : Step} (first : workflow.steps[0]? = some firstStep) {session : Session}
    (unused : session.table (workflow.freshId session) = none) :
    (exec (workflow.subscribe payload .logger) session).2 =
      settled session.ticked (exec (workflow.continueFrom (workflow.freshId session) payload
          (workflow.initialRow (workflow.freshId session) firstStep payload))
        (workflow.begun session.ticked (workflow.freshId session) firstStep payload)) := by
  have steps : workflow.steps ≠ [] := by
    rintro none
    simp [none] at first
  have absent : session.ticked.table (workflow.freshId session) = none := unused
  rw [subscribe_settled steps (exec_executionId_fresh anonymous session),
    exec_processPayload_begun anonymous first (workflow.freshId_ne_empty session) absent]

end Workflow

end Steveo
