import Steveo.Workflow.Delivery

/-!
# What a message can reach

Handling a message calls steps of one execution only and leaves the rows of all others alone,
whatever the names of the steps.  Once a failure of an execution is on record, no message runs any
of its steps.
-/

namespace Steveo

open Steveo.Action Engine

/-- Effects that run steps of one execution only and change its row only. -/
structure Confined (workflowId : String) (before after : Session) : Prop where
  log : ∃ calls, after.log = before.log ++ calls ∧
    ∀ call ∈ calls, ∀ run ∈ call.execution, run.1 = workflowId
  others : ∀ other, other ≠ workflowId → after.table other = before.table other

namespace Confined

variable {workflowId : String}

theorem effects (workflowId : String) : EffectRelation (Confined workflowId) where
  refl session := ⟨⟨[], by simp⟩, fun _ _ => rfl⟩
  trans := by
    rintro before middle after ⟨⟨calls, log, own⟩, others⟩ ⟨⟨calls', log', own'⟩, others'⟩
    refine ⟨⟨calls ++ calls', by rw [log', log, List.append_assoc], fun call member => ?_⟩,
      fun other different => (others' other different).trans (others other different)⟩
    rcases List.mem_append.mp member with earlier | later
    · exact own call earlier
    · exact own' call later

theorem record {call : Call} (own : ∀ run ∈ call.execution, run.1 = workflowId) :
    Preserves (Confined workflowId) (Engine.record call) :=
  fun session => ⟨⟨[call], rfl, by simpa using own⟩, fun _ _ => rfl⟩

theorem emit (event : String) : Preserves (Confined workflowId) (Engine.emit event) :=
  record (by simp [Call.execution])

theorem outside {α : Type} (answer : Nat → α) :
    Preserves (Confined workflowId) (Engine.outside answer) :=
  fun session => ⟨⟨[], by simp⟩, fun _ _ => rfl⟩

theorem update (change : WorkflowState → WorkflowState) :
    Preserves (Confined workflowId) (WorkflowRepository.update workflowId change) := by
  refine update_preserves (effects workflowId) fun session row found => ?_
  exact ⟨⟨[], by simp⟩, fun other different => Function.update_of_ne different _ _⟩

/-- Recording a call that runs nothing and then changing the row. -/
theorem recorded (call : Call) (runs : call.execution = none)
    (change : WorkflowState → WorkflowState) :
    Preserves (Confined workflowId) (do
      Engine.record call
      WorkflowRepository.update workflowId change) :=
  (effects workflowId).bind (record (by simp [runs])) fun _ => update change

theorem deleteWorkflow :
    Preserves (Confined workflowId) (WorkflowRepository.deleteWorkflow workflowId) := by
  refine (effects workflowId).bind (record (by simp [Call.execution])) fun _ session => ?_
  cases found : session.table workflowId with
  | none =>
      rw [exec_bind_ok (exec_get session), found]
      exact (effects workflowId).refl session
  | some row =>
      rw [exec_bind_ok (exec_get session), found]
      exact ⟨⟨[], by simp⟩, fun other different => Function.update_of_ne different _ _⟩

theorem workflowInit (serviceId current : String) (initial : Fields) :
    Preserves (Confined workflowId)
      (WorkflowRepository.workflowInit workflowId serviceId current initial) := by
  refine (effects workflowId).bind (record (by simp [Call.execution])) fun _ session => ?_
  cases found : session.table workflowId with
  | none =>
      rw [exec_bind_ok (exec_get session), found]
      exact ⟨⟨[], by simp⟩, fun other different => Function.update_of_ne different _ _⟩
  | some row =>
      rw [exec_bind_ok (exec_get session), found]
      exact (effects workflowId).refl session

theorem callRollback (step : Step) (state : WorkflowState) :
    Preserves (Confined workflowId) (Workflow.callRollback workflowId step state) := by
  rw [Workflow.callRollback]
  cases step.rollback with
  | none => exact (effects workflowId).pure ()
  | some rollback =>
      exact (effects workflowId).bind (record (by simp [Call.execution])) fun _ =>
        (effects workflowId).bind (outside _) fun _ => (effects workflowId).ofExcept _

theorem executeRollback (workflow : Workflow) (context : ExecuteContext) :
    Preserves (Confined context.workflowId) (workflow.executeRollback context) := by
  have effects := effects context.workflowId
  have round : Preserves (Confined context.workflowId) (workflow.rollbackRound context) := by
    refine effects.bind (callRollback _ _) fun _ =>
      effects.bind (getPreviousStep_preserves effects workflow _) fun previous => ?_
    cases previous with
    | none => exact recorded _ rfl _
    | some previous => exact recorded _ rfl _
  exact rollbackLoop_preserves effects round (fun _ => recorded _ rfl _) _ _

theorem failStep (workflow : Workflow) (context : ExecuteContext) (thrown : String) :
    Preserves (Confined context.workflowId) (workflow.failStep context thrown) :=
  (effects context.workflowId).bind (emit _) fun _ =>
    (effects context.workflowId).bind (recorded _ rfl _) fun _ => executeRollback workflow context

theorem publishInternal (workflow : Workflow) (message : Published) :
    Preserves (Confined workflowId) (workflow.publishInternal message) := by
  have effects := effects workflowId
  have sends : Preserves (Confined workflowId) (workflow.sendMessage message) :=
    effects.bind (outside _) fun _ => effects.bind (emit _) fun _ =>
      effects.bind (effects.ofExcept _) fun _ => record (by simp [Call.execution])
  refine effects.bind (EffectRelation.attempt (effects.bind (outside _) fun _ =>
    effects.bind (effects.ofExcept _) fun _ => effects.bind sends fun _ => emit _))
    fun published => ?_
  cases published with
  | ok _ => exact effects.pure ()
  | error thrown => exact effects.bind (emit _) fun _ => effects.throw thrown

theorem publishNextStep (workflow : Workflow) (current : String) (result : Option Json) :
    Preserves (Confined workflowId) (workflow.publishNextStep current workflowId result) := by
  have effects := effects workflowId
  have next : Preserves (Confined workflowId) (workflow.getNextStep current) := by
    rw [Workflow.getNextStep]
    split
    · exact effects.throw _
    · exact effects.pure _
  refine effects.bind next fun next => ?_
  cases next with
  | none =>
      by_cases deletes : workflow.options.deleteOnComplete = true
      · simp only [deletes, if_true]
        exact deleteWorkflow
      · simp only [deletes, Bool.false_eq_true, if_false]
        exact recorded _ rfl _
  | some next => exact effects.bind (recorded _ rfl _) fun _ => publishInternal workflow _

/-- What follows a step that has resolved. -/
theorem resolved (workflow : Workflow) (context : ExecuteContext) (result : Option Json) :
    Preserves (Confined context.workflowId) (do
      match ← attempt (workflow.publishNextStep context.step.name context.workflowId result) with
      | .error thrown =>
          workflow.failStep
            { context with state := context.state.withResult context.state.current result } thrown
      | .ok _ => pure ()) := by
  have effects := effects context.workflowId
  refine effects.bind (EffectRelation.attempt (publishNextStep workflow _ _)) fun outcome => ?_
  cases outcome with
  | error thrown =>
      exact failStep workflow
        { context with state := context.state.withResult context.state.current result } thrown
  | ok _ => exact effects.pure ()

theorem executeNextStep (workflow : Workflow) (context : ExecuteContext) :
    Preserves (Confined context.workflowId) (workflow.executeNextStep context) := by
  have effects := effects context.workflowId
  have calls : Preserves (Confined context.workflowId) (Workflow.callExecute context) :=
    effects.bind (record (by simp [Call.execution])) fun _ =>
      effects.bind (outside _) fun _ => effects.ofExcept _
  have runs : Preserves (Confined context.workflowId) (workflow.runStep context) :=
    effects.bind (effects.ensure _ _) fun _ => effects.bind (effects.ensure _ _) fun _ =>
      effects.bind calls fun _ => effects.bind (recorded _ rfl _) fun _ => effects.pure _
  refine effects.bind (EffectRelation.attempt runs) fun outcome => ?_
  cases outcome with
  | error thrown => exact failStep workflow context thrown
  | ok result => exact resolved workflow context result

theorem continueFrom (workflow : Workflow) (payload : Fields) (row : WorkflowState) :
    Preserves (Confined workflowId) (workflow.continueFrom workflowId payload row) := by
  refine (effects workflowId).bind ((effects workflowId).ensure _ _) fun _ => ?_
  cases workflow.steps.find? fun step => step.name == row.current with
  | none => exact (effects workflowId).throw _
  | some step =>
      by_cases clean : row.errorList.isEmpty = true
      · simp only [clean, if_true]
        exact executeNextStep workflow ⟨workflowId, payload, step, row⟩
      · simp only [clean, Bool.false_eq_true, if_false]
        exact executeRollback workflow ⟨workflowId, payload, step, row⟩

theorem processPayload (workflow : Workflow) (payload : Fields) :
    Preserves (Confined workflowId) (workflow.processPayload (.str workflowId) payload) := by
  have effects := effects workflowId
  have initialises : Preserves (Confined workflowId)
      (workflow.initialise workflowId payload) :=
    initialise_preserves effects workflow fun _ _ => workflowInit _ _ _
  have loads : Preserves (Confined workflowId) (Workflow.loadState workflowId) := by
    refine effects.bind (effects.ensure _ _) fun _ => ?_
    refine effects.bind (fun session => ?_) fun state => ?_
    · exact record (by simp [Call.execution]) session
    · cases state with
      | none => exact effects.throw _
      | some state => exact effects.pure state
  rw [Workflow.processPayload, Workflow.storageKey, pure_bind]
  exact effects.bind initialises fun _ => effects.bind loads fun row =>
    continueFrom workflow payload row

end Confined

/-! ## The step that a message runs -/

namespace Workflow

/-- The step whose function the engine calls for a row. -/
structure Executes (workflow : Workflow) (row : WorkflowState) (step : Step) : Prop where
  named : row.current ≠ ""
  found : workflow.steps.find? (fun candidate => candidate.name == row.current) = some step
  clean : row.errorList = []
  service : row.serviceId = workflow.options.serviceId
  ordered : workflow.expectedOrder step row = true

variable {workflow : Workflow} {row : WorkflowState} {step : Step}

theorem Executes.name (executes : workflow.Executes row step) : step.name = row.current := by
  simpa using List.find?_some executes.found

theorem Executes.exec_continueFrom (executes : workflow.Executes row step) (workflowId : String)
    (payload : Fields) (session : Session) :
    exec (workflow.continueFrom workflowId payload row) session =
      exec (workflow.executeNextStep ⟨workflowId, payload, step, row⟩) session := by
  have named : (row.current != "") = true := by simpa using executes.named
  rw [continueFrom, named, exec_bind_ok (exec_ensure_true _ _), executes.found]
  simp only [executes.clean, List.isEmpty_nil, if_true]

/-- A step that passes the checks is called, whatever comes of it. -/
theorem execute_mem_executeNextStep {context : ExecuteContext} {session : Session}
    (stored : session.table context.workflowId = some context.state)
    (service : context.state.serviceId = workflow.options.serviceId)
    (ordered : workflow.expectedOrder context.step context.state = true) :
    .execute context.workflowId context.step.name context.payload ∈
      (exec (workflow.executeNextStep context) session).2.log := by
  have kept {relative : Engine Unit} (confined : Preserves (Confined context.workflowId) relative)
      {reached : Session}
      (member : .execute context.workflowId context.step.name context.payload ∈ reached.log) :
      .execute context.workflowId context.step.name context.payload ∈
        (exec relative reached).2.log := by
    obtain ⟨⟨calls, log, -⟩, -⟩ := confined reached
    rw [log]
    exact List.mem_append_left _ member
  rw [executeNextStep, exec_bind_ok (exec_attempt _ _)]
  cases resolved : context.step.execute session.tick context.payload with
  | error thrown =>
      rw [exec_runStep_thrown context service ordered resolved]
      exact kept (Confined.failStep workflow context thrown) (by simp)
  | ok result =>
      rw [exec_runStep context stored service ordered resolved]
      exact kept (Confined.resolved workflow context result) (by simp [ran])

/-- The function of the step is called with the payload of the message. -/
theorem Executes.execute_mem_log (executes : workflow.Executes row step) (workflowId : String)
    (payload : Fields) {session : Session} (stored : session.table workflowId = some row) :
    .execute workflowId step.name payload ∈
      (exec (workflow.continueFrom workflowId payload row) session).2.log := by
  rw [executes.exec_continueFrom]
  exact execute_mem_executeNextStep stored executes.service executes.ordered

end Workflow

/-! ## Failed executions -/

/-- Effects that run no step of an execution and keep the errors on its record. -/
structure Barred (workflowId : String) (before after : Session) : Prop where
  log : ∃ calls, after.log = before.log ++ calls ∧
    ∀ call ∈ calls, ∀ run ∈ call.execution, run.1 ≠ workflowId
  row : ∀ row, before.table workflowId = some row → ∃ changed,
    after.table workflowId = some changed ∧ row.errorList <+: changed.errorList

/-- What is confined to one execution is barred from all others. -/
theorem Confined.barred {workflowId other : String} {before after : Session}
    (confined : Confined other before after) (different : workflowId ≠ other) :
    Barred workflowId before after where
  log := by
    obtain ⟨calls, log, own⟩ := confined.log
    exact ⟨calls, log, fun call member run runs => own call member run runs ▸ different.symm⟩
  row := by
    intro row found
    exact ⟨row, (confined.others workflowId different).trans found, List.prefix_refl _⟩

namespace Barred

variable {workflowId : String}

theorem effects (workflowId : String) : EffectRelation (Barred workflowId) where
  refl session := ⟨⟨[], by simp⟩, fun row found => ⟨row, found, List.prefix_refl _⟩⟩
  trans := by
    rintro before middle after ⟨⟨calls, log, others⟩, row⟩ ⟨⟨calls', log', others'⟩, row'⟩
    refine ⟨⟨calls ++ calls', by rw [log', log, List.append_assoc], fun call member => ?_⟩,
      fun stored found => ?_⟩
    · rcases List.mem_append.mp member with earlier | later
      · exact others call earlier
      · exact others' call later
    · obtain ⟨changed, found', kept⟩ := row stored found
      obtain ⟨changed', found'', kept'⟩ := row' changed found'
      exact ⟨changed', found'', kept.trans kept'⟩

theorem record {call : Call} (runs : call.execution = none) :
    Preserves (Barred workflowId) (Engine.record call) :=
  fun session => ⟨⟨[call], rfl, by simp [runs]⟩, fun row found => ⟨row, found, List.prefix_refl _⟩⟩

theorem outside {α : Type} (answer : Nat → α) :
    Preserves (Barred workflowId) (Engine.outside answer) :=
  fun session => ⟨⟨[], by simp⟩, fun row found => ⟨row, found, List.prefix_refl _⟩⟩

/-- Recording a call that runs nothing and then changing the row without losing an error. -/
theorem recorded (call : Call) (runs : call.execution = none)
    {change : WorkflowState → WorkflowState}
    (keeps : ∀ row, row.errorList <+: (change row).errorList) :
    Preserves (Barred workflowId) (do
      Engine.record call
      WorkflowRepository.update workflowId change) := by
  refine (effects workflowId).bind (record runs) fun _ => ?_
  refine update_preserves (effects workflowId) fun session row found => ?_
  refine ⟨⟨[], by simp⟩, fun stored present => ?_⟩
  obtain rfl := Option.some.inj (found.symm.trans present)
  exact ⟨change row, Function.update_self _ _ _, keeps row⟩

theorem storeExecuteError (identifier error : String) :
    Preserves (Barred workflowId)
      (WorkflowRepository.storeExecuteError workflowId identifier error) :=
  recorded _ rfl fun _ => ⟨_, rfl⟩

theorem workflowInit (serviceId current : String) (initial : Fields) :
    Preserves (Barred workflowId)
      (WorkflowRepository.workflowInit workflowId serviceId current initial) := by
  refine (effects workflowId).bind (record rfl) fun _ session => ?_
  cases found : session.table workflowId with
  | none =>
      rw [exec_bind_ok (exec_get session), found]
      refine ⟨⟨[], by simp⟩, fun row present => ?_⟩
      cases found.symm.trans present
  | some row =>
      rw [exec_bind_ok (exec_get session), found]
      exact (effects workflowId).refl session

theorem executeRollback (workflow : Workflow) (context : ExecuteContext) :
    Preserves (Barred context.workflowId) (workflow.executeRollback context) := by
  have effects := effects context.workflowId
  have calls : Preserves (Barred context.workflowId)
      (Workflow.callRollback context.workflowId context.step context.state) := by
    rw [Workflow.callRollback]
    cases context.step.rollback with
    | none => exact effects.pure ()
    | some rollback =>
        exact effects.bind (record rfl) fun _ => effects.bind (outside _) fun _ =>
          effects.ofExcept _
  have round : Preserves (Barred context.workflowId) (workflow.rollbackRound context) := by
    refine effects.bind calls fun _ =>
      effects.bind (getPreviousStep_preserves effects workflow _) fun previous => ?_
    cases previous with
    | none => exact recorded _ rfl fun row => List.prefix_refl _
    | some previous => exact recorded _ rfl fun row => List.prefix_refl _
  exact rollbackLoop_preserves effects round (fun _ => storeExecuteError _ _) _ _

/-- Continuing a failed execution rolls it back. -/
theorem continueFrom (workflow : Workflow) (payload : Fields) {row : WorkflowState}
    (failed : row.errorList ≠ []) :
    Preserves (Barred workflowId) (workflow.continueFrom workflowId payload row) := by
  have failing : row.errorList.isEmpty = false := by simpa using failed
  refine (effects workflowId).bind ((effects workflowId).ensure _ _) fun _ => ?_
  cases workflow.steps.find? fun step => step.name == row.current with
  | none => exact (effects workflowId).throw _
  | some step =>
      simp only [failing, Bool.false_eq_true, if_false]
      exact executeRollback workflow ⟨workflowId, payload, step, row⟩

theorem failed_after {before after : Session} (barred : Barred workflowId before after)
    (failed : ∃ row, before.table workflowId = some row ∧ row.errorList ≠ []) :
    ∃ row, after.table workflowId = some row ∧ row.errorList ≠ [] := by
  obtain ⟨row, found, failed⟩ := failed
  obtain ⟨changed, found', kept⟩ := barred.row row found
  refine ⟨changed, found', fun none => failed ?_⟩
  rwa [none, List.prefix_nil] at kept

/-- Processing a message of a failed execution. -/
theorem processPayload (workflow : Workflow) (payload : Fields) (session : Session)
    (failed : ∃ row, session.table workflowId = some row ∧ row.errorList ≠ []) :
    Barred workflowId session
      (exec (workflow.processPayload (.str workflowId) payload) session).2 := by
  have effects := effects workflowId
  have initialises : Preserves (Barred workflowId) (workflow.initialise workflowId payload) :=
    initialise_preserves effects workflow fun _ _ => workflowInit _ _ _
  rw [Workflow.processPayload, Workflow.storageKey, pure_bind, exec_bind]
  have first := initialises session
  rcases initialised : exec (workflow.initialise workflowId payload) session with
    ⟨outcome, middle⟩
  rw [initialised] at first
  cases outcome with
  | error message => exact first
  | ok _ =>
      obtain ⟨row, found, failing⟩ := first.failed_after failed
      refine effects.trans first ?_
      by_cases named : workflowId = ""
      · subst named
        exact effects.refl middle
      · change Barred workflowId middle
          (exec (Workflow.loadState workflowId >>= workflow.continueFrom workflowId payload)
            middle).2
        rw [exec_bind_ok (Workflow.exec_loadState named middle found)]
        exact effects.trans (record rfl middle) (continueFrom workflow payload failing _)

end Barred

namespace Workflow

variable {workflow : Workflow}

/-- Whatever a message is, handling it sets a session going and settles it. -/
theorem handle_eq_settled (steps : workflow.steps ≠ []) (session : Session) (payload : Fields) :
    ∃ identifier opened, opened.table = session.table ∧ opened.log = session.log ∧
      workflow.handle session payload = settled opened
        (exec (workflow.processPayload identifier payload) (opened.logged .transaction)) := by
  by_cases anonymous : nullish (payload.get "workflowId") = true
  · exact ⟨_, session.ticked, rfl, rfl,
      subscribe_settled steps (exec_executionId_fresh anonymous session)⟩
  · have named : exec (workflow.executionId payload) session =
        (.ok ((payload.get "workflowId").getD .null), session) := by
      rw [executionId]
      split
      · rename_i absent
        exact absurd (by rw [absent]; rfl) anonymous
      · rename_i null
        exact absurd (by rw [null]; rfl) anonymous
      · rename_i identifier named
        rw [named]
        rfl
    exact ⟨_, session, rfl, rfl, subscribe_settled steps named⟩

/-- The end of a transaction bars what its body bars. -/
theorem barred_settled {workflowId : String} {opened : Session}
    {result : Except String Unit × Session}
    (barred : Barred workflowId (opened.logged .transaction) result.2) :
    Barred workflowId opened (settled opened result) := by
  have effects := Barred.effects workflowId
  have opens : Barred workflowId opened (opened.logged .transaction) := Barred.record rfl opened
  obtain ⟨outcome, after⟩ := result
  cases outcome with
  | ok _ => exact effects.trans opens (effects.trans barred (Barred.record rfl after))
  | error thrown =>
      obtain ⟨calls, log, others⟩ := (effects.trans opens barred).log
      refine ⟨⟨calls ++ [.emit "workflow_step_failure"], ?_, fun call member => ?_⟩,
        fun row found => ⟨row, found, List.prefix_refl _⟩⟩
      · have extended : after.log = opened.log ++ calls := log
        simp only [settled, Session.logged_log, extended, List.append_assoc]
      · rcases List.mem_append.mp member with earlier | new
        · exact others call earlier
        · simp [List.mem_singleton.mp new, Call.execution]

/-- A message runs no step of a failed execution and leaves its errors on record. -/
theorem handle_barred {session : Session} {workflowId : String}
    (failed : ∃ row, session.table workflowId = some row ∧ row.errorList ≠ [])
    (payload : Fields) : Barred workflowId session (workflow.handle session payload) := by
  by_cases steps : workflow.steps = []
  · rw [handle_empty steps]
    exact Barred.record rfl session
  · obtain ⟨identifier, opened, table, log, handled⟩ := handle_eq_settled steps session payload
    have processed : Barred workflowId (opened.logged .transaction)
        (exec (workflow.processPayload identifier payload) (opened.logged .transaction)).2 := by
      cases identifier with
      | str owner =>
          by_cases same : workflowId = owner
          · subst same
            exact Barred.processPayload workflow payload _ (by simpa [table] using failed)
          · exact (Confined.processPayload workflow payload _).barred same
      | _ => exact (Barred.effects workflowId).refl _
    obtain ⟨⟨calls, later, others⟩, row⟩ := barred_settled processed
    rw [handled]
    exact ⟨⟨calls, by rw [later, log], others⟩, fun stored found => row stored (table ▸ found)⟩

/-- However many messages are handled, none runs a step of a failed execution, and its errors stay
on record. -/
theorem handles_barred (payloads : List Fields) {session : Session} {workflowId : String}
    (failed : ∃ row, session.table workflowId = some row ∧ row.errorList ≠ []) :
    Barred workflowId session (payloads.foldl workflow.handle session) := by
  induction payloads generalizing session with
  | nil => exact (Barred.effects workflowId).refl session
  | cons payload payloads induction =>
      have first : Barred workflowId session (workflow.handle session payload) :=
        handle_barred failed payload
      exact (Barred.effects workflowId).trans first (induction (first.failed_after failed))

end Workflow

end Steveo
