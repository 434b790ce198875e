import Steveo.Library.Composition
import Steveo.Workflow.Saga

/-!
# Executions do not notice each other

Everything the engine does for one execution is put together from calls on its behalf and changes
of its row.  So what becomes of an execution depends on its own messages only, in whatever order
they are handled among those of other executions.
-/

namespace Steveo

open Steveo.Action Engine

/-- The execution on whose behalf a call is made. -/
def Call.owner : Call → Option String
  | .transaction | .emit _ => none
  | .workflowInit workflowId _ | .loadWorkflow workflowId | .updateWorkflowCompleted workflowId
  | .deleteWorkflow workflowId | .updateCurrentStep workflowId _
  | .storeExecuteError workflowId _ _ | .storeStepResult workflowId _ _
  | .rollbackStepExecute workflowId _ | .execute workflowId _ _ | .rollback workflowId _ =>
      some workflowId
  | .send message => some message.workflowId

/-- The calls on behalf of one execution. -/
def callsOf (workflowId : String) (log : List Call) : List Call :=
  log.filter fun call => call.owner = some workflowId

/-- Sessions that look the same to one execution. -/
structure SameFor (workflowId : String) (left right : Session) : Prop where
  row : left.table workflowId = right.table workflowId
  calls : callsOf workflowId left.log = callsOf workflowId right.log

namespace SameFor

variable {workflowId : String}

theorem effects (workflowId : String) : EffectRelation (SameFor workflowId) where
  refl _ := ⟨rfl, rfl⟩
  trans first second := ⟨first.row.trans second.row, first.calls.trans second.calls⟩

theorem logged {left right : Session} (same : SameFor workflowId left right) (call : Call) :
    SameFor workflowId (left.logged call) (right.logged call) where
  row := same.row
  calls := by
    simp only [callsOf, Session.logged_log, List.filter_append]
    exact congrArg (· ++ _) same.calls

theorem stored {left right : Session} (same : SameFor workflowId left right)
    (row : Option WorkflowState) :
    SameFor workflowId (left.stored workflowId row) (right.stored workflowId row) where
  row := by simp
  calls := same.calls

/-- A call on behalf of another execution goes unnoticed. -/
theorem logged_other {call : Call} (foreign : call.owner ≠ some workflowId) (session : Session) :
    SameFor workflowId session (session.logged call) where
  row := rfl
  calls := by simp [callsOf, foreign]

/-- A change of another row goes unnoticed. -/
theorem stored_other {other : String} (different : other ≠ workflowId) (session : Session)
    (row : Option WorkflowState) : SameFor workflowId session (session.stored other row) where
  row := by simp [Function.update_of_ne different.symm]
  calls := rfl

end SameFor

/-! ## What the engine does for one execution -/

/-- The basic actions on behalf of one execution.  Code outside the engine has to answer the same
whenever it is asked. -/
inductive OnBehalf (workflowId : String) : (α : Type) → Engine α → Prop
  | record {call : Call} (own : call.owner = none ∨ call.owner = some workflowId) :
      OnBehalf workflowId Unit (Engine.record call)
  | outside {α : Type} {answer : Nat → α} (steady : ∀ tick later, answer tick = answer later) :
      OnBehalf workflowId α (Engine.outside answer)
  | update (change : WorkflowState → WorkflowState) :
      OnBehalf workflowId Unit (WorkflowRepository.update workflowId change)
  | workflowInit (serviceId current : String) (initial : Fields) :
      OnBehalf workflowId Unit
        (WorkflowRepository.workflowInit workflowId serviceId current initial)
  | loadWorkflow :
      OnBehalf workflowId (Option WorkflowState) (WorkflowRepository.loadWorkflow workflowId)
  | deleteWorkflow : OnBehalf workflowId Unit (WorkflowRepository.deleteWorkflow workflowId)

namespace OnBehalf

variable {workflowId : String} {α : Type} {action : Engine α}

/-- An execution that sees the same row does the same and sees the same afterwards. -/
theorem respects (onBehalf : OnBehalf workflowId α action) :
    Respects (SameFor workflowId) action := by
  intro left right same
  cases onBehalf with
  | record own => exact ⟨rfl, same.logged _⟩
  | @outside _ answer steady => exact ⟨congrArg Except.ok (steady _ _), same.row, same.calls⟩
  | update change =>
      rw [WorkflowRepository.update, exec_bind_ok (exec_get left), exec_bind_ok (exec_get right),
        same.row]
      cases right.table workflowId with
      | none => exact ⟨rfl, same⟩
      | some row => exact ⟨rfl, same.stored _⟩
  | workflowInit serviceId current initial =>
      rw [WorkflowRepository.workflowInit, exec_bind_ok (exec_record _ _),
        exec_bind_ok (exec_record _ _), exec_bind_ok (exec_get _), exec_bind_ok (exec_get _),
        Session.logged_table, Session.logged_table, same.row]
      cases right.table workflowId with
      | none => exact ⟨rfl, (same.logged _).stored _⟩
      | some row => exact ⟨rfl, same.logged _⟩
  | loadWorkflow => exact ⟨congrArg Except.ok same.row, same.logged _⟩
  | deleteWorkflow =>
      rw [WorkflowRepository.deleteWorkflow, exec_bind_ok (exec_record _ _),
        exec_bind_ok (exec_record _ _), exec_bind_ok (exec_get _), exec_bind_ok (exec_get _),
        Session.logged_table, Session.logged_table, same.row]
      cases right.table workflowId with
      | none => exact ⟨rfl, same.logged _⟩
      | some row => exact ⟨rfl, (same.logged _).stored _⟩

/-- Other executions do not notice. -/
theorem unnoticed (onBehalf : OnBehalf workflowId α action) {other : String}
    (different : workflowId ≠ other) : Preserves (SameFor other) action := by
  intro session
  have calls : ∀ {call : Call}, call.owner = none ∨ call.owner = some workflowId →
      ∀ session, SameFor other session (session.logged call) := by
    intro call own session
    refine SameFor.logged_other ?_ session
    rcases own with none | own
    · simp [none]
    · simpa [own] using different
  cases onBehalf with
  | record own => exact calls own session
  | outside steady => exact ⟨rfl, rfl⟩
  | update change =>
      rw [WorkflowRepository.update, exec_bind_ok (exec_get session)]
      cases session.table workflowId with
      | none => exact (SameFor.effects other).refl session
      | some row => exact SameFor.stored_other different session _
  | workflowInit serviceId current initial =>
      rw [WorkflowRepository.workflowInit, exec_bind_ok (exec_record _ _),
        exec_bind_ok (exec_get _), Session.logged_table]
      cases session.table workflowId with
      | none =>
          exact (SameFor.effects other).trans (calls (.inr rfl) session)
            (SameFor.stored_other different _ _)
      | some row => exact calls (.inr rfl) session
  | loadWorkflow => exact calls (.inr rfl) session
  | deleteWorkflow =>
      rw [WorkflowRepository.deleteWorkflow, exec_bind_ok (exec_record _ _),
        exec_bind_ok (exec_get _), Session.logged_table]
      cases session.table workflowId with
      | none => exact calls (.inr rfl) session
      | some row =>
          exact (SameFor.effects other).trans (calls (.inr rfl) session)
            (SameFor.stored_other different _ _)

end OnBehalf

namespace Workflow

/-- Code outside the engine answers the same whenever it is asked; identifiers are generated anew
every time. -/
structure Steady (workflow : Workflow) : Prop where
  initializeTopic : ∀ topic tick later,
    workflow.host.initializeTopic tick topic = workflow.host.initializeTopic later topic
  send : ∀ topic payload tick later,
    workflow.host.send tick topic payload = workflow.host.send later topic payload
  execute : ∀ step ∈ workflow.steps, ∀ payload tick later,
    step.execute tick payload = step.execute later payload
  rollback : ∀ step ∈ workflow.steps, ∀ rollback, step.rollback = some rollback →
    ∀ state tick later, rollback tick state = rollback later state

variable {workflow : Workflow} {workflowId : String}

theorem composed_record {call : Call} (own : call.owner = none ∨ call.owner = some workflowId) :
    Composed (OnBehalf workflowId) (Engine.record call) := .basic (.record own)

theorem composed_emit (event : String) :
    Composed (OnBehalf workflowId) (Engine.emit event) := composed_record (.inl rfl)

/-- Recording a call of an execution and changing its row. -/
theorem composed_recorded (call : Call) (own : call.owner = some workflowId)
    (change : WorkflowState → WorkflowState) :
    Composed (OnBehalf workflowId) (do
      Engine.record call
      WorkflowRepository.update workflowId change) :=
  .bind (composed_record (.inr own)) fun _ => .basic (.update change)

namespace Steady

theorem callRollback (steady : workflow.Steady) {step : Step} (member : step ∈ workflow.steps)
    (state : WorkflowState) :
    Composed (OnBehalf workflowId) (Workflow.callRollback workflowId step state) := by
  rw [Workflow.callRollback]
  cases undo : step.rollback with
  | none => exact .pure ()
  | some rollback =>
      refine .bind (composed_record (.inr rfl)) fun _ => ?_
      refine .bind (.basic (.outside fun tick later => ?_)) fun _ => .ofExcept _
      exact steady.rollback step member rollback undo state tick later

theorem getPreviousStep (stepName : String) :
    Composed (OnBehalf workflowId) (workflow.getPreviousStep stepName) := by
  rw [Workflow.getPreviousStep]
  split
  · exact .throw _
  · exact .pure _
  · exact .pure _

theorem guardedRound (steady : workflow.Steady) {context : ExecuteContext}
    (member : context.step ∈ workflow.steps) :
    Composed (OnBehalf context.workflowId) (workflow.guardedRound context) := by
  refine .bind (.attempt ?_) fun outcome => ?_
  · refine .bind (steady.callRollback member context.state) fun _ => ?_
    refine .bind (getPreviousStep _) fun previous => ?_
    cases previous with
    | none => exact composed_recorded _ rfl _
    | some previous => exact composed_recorded _ rfl _
  · cases outcome with
    | ok _ => exact .pure ()
    | error thrown => exact .bind (composed_recorded _ rfl _) fun _ => .throw thrown

theorem rollbackLoop (steady : workflow.Steady) {context : ExecuteContext}
    (member : context.step ∈ workflow.steps) (rounds : Nat) (cursor : Option Step) :
    Composed (OnBehalf context.workflowId) (workflow.rollbackLoop context rounds cursor) := by
  induction rounds generalizing cursor with
  | zero => cases cursor <;> exact .pure ()
  | succ rounds induction =>
      cases cursor with
      | none => exact .pure ()
      | some current =>
          refine .bind (steady.guardedRound member) fun _ => ?_
          exact .bind (getPreviousStep _) fun previous => induction previous

theorem failStep (steady : workflow.Steady) {context : ExecuteContext}
    (member : context.step ∈ workflow.steps) (thrown : String) :
    Composed (OnBehalf context.workflowId) (workflow.failStep context thrown) := by
  refine .bind (composed_emit _) fun _ => ?_
  exact .bind (composed_recorded _ rfl _) fun _ => steady.rollbackLoop member _ _

theorem publishInternal (steady : workflow.Steady) {message : Published}
    (own : message.workflowId = workflowId) :
    Composed (OnBehalf workflowId) (workflow.publishInternal message) := by
  refine .bind (.attempt ?_) fun outcome => ?_
  · refine .bind (.basic (.outside (steady.initializeTopic message.topic))) fun ready => ?_
    refine .bind (.ofExcept ready) fun _ => .bind ?_ fun _ => composed_emit _
    refine .bind (.basic (.outside (steady.send message.topic message.payload))) fun sent => ?_
    refine .bind (composed_emit _) fun _ => .bind (.ofExcept sent) fun _ => ?_
    exact composed_record (.inr (congrArg some own))
  · cases outcome with
    | ok _ => exact .pure ()
    | error thrown => exact .bind (composed_emit _) fun _ => .throw thrown

theorem publishNextStep (steady : workflow.Steady) (current : String) (result : Option Json) :
    Composed (OnBehalf workflowId) (workflow.publishNextStep current workflowId result) := by
  have next : Composed (OnBehalf workflowId) (workflow.getNextStep current) := by
    rw [Workflow.getNextStep]
    split
    · exact .throw _
    · exact .pure _
  refine .bind next fun next => ?_
  cases next with
  | none =>
      cases workflow.options.deleteOnComplete with
      | true => exact .basic .deleteWorkflow
      | false => exact composed_recorded _ rfl _
  | some next =>
      exact .bind (composed_recorded _ rfl _) fun _ => steady.publishInternal rfl

theorem runStep (steady : workflow.Steady) {context : ExecuteContext}
    (member : context.step ∈ workflow.steps) :
    Composed (OnBehalf context.workflowId) (workflow.runStep context) := by
  refine .bind (.ensure _ _) fun _ => .bind (.ensure _ _) fun _ => .bind ?_ fun result => ?_
  · refine .bind (composed_record (.inr rfl)) fun _ => ?_
    refine .bind (.basic (.outside ?_)) fun resolved => .ofExcept resolved
    exact steady.execute context.step member context.payload
  · exact .bind (composed_recorded _ rfl _) fun _ => .pure result

theorem executeNextStep (steady : workflow.Steady) {context : ExecuteContext}
    (member : context.step ∈ workflow.steps) :
    Composed (OnBehalf context.workflowId) (workflow.executeNextStep context) := by
  refine .bind (.attempt (steady.runStep member)) fun outcome => ?_
  cases outcome with
  | error thrown => exact steady.failStep member thrown
  | ok result =>
      refine .bind (.attempt (steady.publishNextStep _ result)) fun published => ?_
      cases published with
      | error thrown =>
          let context' : ExecuteContext :=
            { context with state := context.state.withResult context.state.current result }
          have member' : context'.step ∈ workflow.steps := member
          exact steady.failStep member' thrown
      | ok _ => exact .pure ()

theorem continueFrom (steady : workflow.Steady) (payload : Fields) (state : WorkflowState) :
    Composed (OnBehalf workflowId) (workflow.continueFrom workflowId payload state) := by
  refine .bind (.ensure _ _) fun _ => ?_
  cases current : workflow.steps.find? fun step => step.name == state.current with
  | none => exact .throw _
  | some step =>
      let context : ExecuteContext := ⟨workflowId, payload, step, state⟩
      have member : context.step ∈ workflow.steps := List.mem_of_find?_eq_some current
      cases clean : state.errorList.isEmpty with
      | true =>
          simp only [if_true]
          exact steady.executeNextStep member
      | false =>
          simp only [Bool.false_eq_true, if_false]
          exact steady.rollbackLoop member _ _

/-- Processing a message is put together from actions on behalf of its execution. -/
theorem processPayload (steady : workflow.Steady) (payload : Fields) :
    Composed (OnBehalf workflowId) (workflow.processPayload (.str workflowId) payload) := by
  rw [Workflow.processPayload, Workflow.storageKey, pure_bind]
  refine .bind ?_ fun _ => .bind ?_ fun state => steady.continueFrom payload state
  · rw [Workflow.initialise]
    split
    · exact .pure ()
    · split
      · exact .throw _
      · exact .basic (.workflowInit _ _ _)
  · refine .bind (.ensure _ _) fun _ => .bind (.basic .loadWorkflow) fun state => ?_
    cases state with
    | none => exact .throw _
    | some state => exact .pure state

end Steady

/-! ## Messages -/

/-- Sessions that look the same settle alike after transactions with the same outcome. -/
theorem settled_same {left right : Session} (same : SameFor workflowId left right)
    {leftResult rightResult : Except String Unit × Session}
    (outcome : leftResult.1 = rightResult.1)
    (ends : SameFor workflowId leftResult.2 rightResult.2) :
    SameFor workflowId (settled left leftResult) (settled right rightResult) := by
  obtain ⟨leftOutcome, leftEnd⟩ := leftResult
  obtain ⟨rightOutcome, rightEnd⟩ := rightResult
  obtain rfl : leftOutcome = rightOutcome := outcome
  cases leftOutcome with
  | ok _ => exact ends.logged _
  | error _ =>
      have restored : SameFor workflowId { leftEnd with table := left.table }
          { rightEnd with table := right.table } := ⟨same.row, ends.calls⟩
      exact restored.logged _

/-- A transaction that goes unnoticed settles unnoticed. -/
theorem settled_unnoticed {opened : Session} {result : Except String Unit × Session}
    (unnoticed : SameFor workflowId opened result.2) :
    SameFor workflowId opened (settled opened result) := by
  have notice : ∀ {event : String} {session : Session}, SameFor workflowId opened session →
      SameFor workflowId opened (session.logged (.emit event)) := fun same =>
    (SameFor.effects workflowId).trans same (SameFor.logged_other (by simp [Call.owner]) _)
  obtain ⟨outcome, after⟩ := result
  cases outcome with
  | ok _ => exact notice unnoticed
  | error _ => exact notice ⟨rfl, unnoticed.calls⟩

/-- A message does the same to its execution in sessions that look the same to it. -/
theorem Steady.handle_own (steady : workflow.Steady) {left right : Session}
    (same : SameFor workflowId left right) {payload : Fields}
    (own : addresses workflowId payload = true) :
    SameFor workflowId (workflow.handle left payload) (workflow.handle right payload) := by
  by_cases steps : workflow.steps = []
  · rw [handle_empty steps, handle_empty steps]
    exact same.logged _
  · have carries := addresses_iff.mp own
    rw [handle, handle, subscribe_settled steps (exec_executionId_named carries left),
      subscribe_settled steps (exec_executionId_named carries right)]
    have processes := (steady.processPayload payload).respects
      (fun _ _ onBehalf => onBehalf.respects) (left.logged .transaction)
      (right.logged .transaction) (same.logged _)
    exact settled_same same processes.1 processes.2

/-- Processing a message goes unnoticed by executions that it does not identify. -/
theorem Steady.processPayload_unnoticed (steady : workflow.Steady) {identifier : Json}
    (foreign : identifier ≠ .str workflowId) (payload : Fields) (session : Session) :
    SameFor workflowId session (exec (workflow.processPayload identifier payload) session).2 := by
  cases identifier with
  | str owner =>
      have different : owner ≠ workflowId := fun same => foreign (congrArg Json.str same)
      exact (steady.processPayload payload).preserves (SameFor.effects workflowId)
        (fun _ _ onBehalf => onBehalf.unnoticed different) session
  | _ => exact (SameFor.effects workflowId).refl session

/-- A message goes unnoticed by the executions that it neither names nor begins. -/
theorem Steady.handle_unnoticed (steady : workflow.Steady) {session : Session} {payload : Fields}
    (foreign : addresses workflowId payload = false)
    (elsewhere : workflow.Elsewhere workflowId session payload) :
    SameFor workflowId session (workflow.handle session payload) := by
  have processes : ∀ {identifier : Json}, identifier ≠ .str workflowId → ∀ opened : Session,
      SameFor workflowId opened (settled opened
        (exec (workflow.processPayload identifier payload) (opened.logged .transaction))) := by
    intro identifier different opened
    have opens : SameFor workflowId opened (opened.logged .transaction) :=
      SameFor.logged_other (by simp [Call.owner]) opened
    refine settled_unnoticed ((SameFor.effects workflowId).trans opens ?_)
    exact steady.processPayload_unnoticed different payload _
  by_cases steps : workflow.steps = []
  · rw [handle_empty steps]
    exact SameFor.logged_other (by simp [Call.owner]) session
  by_cases anonymous : nullish (payload.get "workflowId") = true
  · rw [handle, subscribe_settled steps (exec_executionId_fresh anonymous session)]
    have opens : SameFor workflowId session session.ticked := ⟨rfl, rfl⟩
    exact (SameFor.effects workflowId).trans opens
      (processes (fun same => elsewhere anonymous (Json.str.inj same)) session.ticked)
  · have identified : exec (workflow.executionId payload) session =
        (.ok ((payload.get "workflowId").getD .null), session) := by
      rw [executionId]
      split
      · rename_i absent
        exact absurd (by rw [absent]; rfl) anonymous
      · rename_i null
        exact absurd (by rw [null]; rfl) anonymous
      · rename_i identifier named
        rw [named]
        rfl
    rw [handle, subscribe_settled steps identified]
    refine processes (fun same => ?_) session
    cases carries : payload.get "workflowId" with
    | none => simp [carries, nullish] at anonymous
    | some identifier =>
        obtain rfl : identifier = .str workflowId := by simpa [carries] using same
        rw [addresses_iff.mpr carries] at foreign
        cases foreign

/-- Without the messages that do not concern an execution it ends up the same. -/
theorem Steady.handles_same (steady : workflow.Steady) {payloads : List Fields}
    {left right : Session} (same : SameFor workflowId left right)
    (elsewhere : workflow.messages.Along (workflow.Elsewhere workflowId) payloads left) :
    SameFor workflowId (payloads.foldl workflow.handle left)
      ((payloads.filter (addresses workflowId)).foldl workflow.handle right) := by
  induction payloads generalizing left right with
  | nil => exact same
  | cons payload payloads induction =>
      have rest := elsewhere.2 (workflow.handle left payload) rfl
      cases own : addresses workflowId payload with
      | true =>
          rw [List.filter_cons_of_pos own]
          exact induction (steady.handle_own same own) rest
      | false =>
          rw [List.filter_cons_of_neg (by simp [own])]
          have unnoticed := steady.handle_unnoticed own elsewhere.1
          have still : SameFor workflowId (workflow.handle left payload) right :=
            ⟨unnoticed.row.symm.trans same.row, unnoticed.calls.symm.trans same.calls⟩
          exact induction still rest

/-- In whatever order messages are handled, an execution ends up with the same row and has had the
same calls made on its behalf as if only its own messages had been handled. -/
theorem handles_isolated (steady : workflow.Steady) {payloads : List Fields} {session : Session}
    (elsewhere : workflow.messages.Along (workflow.Elsewhere workflowId) payloads session) :
    SameFor workflowId (payloads.foldl workflow.handle session)
      ((payloads.filter (addresses workflowId)).foldl workflow.handle session) :=
  steady.handles_same ((SameFor.effects workflowId).refl session) elsewhere

theorem numbered_steady (names : List String) : (numbered names).Steady where
  initializeTopic _ _ _ := rfl
  send _ _ _ _ := rfl
  execute step member _ _ _ := by
    obtain ⟨name, -, rfl⟩ := List.mem_map.mp member
    rfl
  rollback step member _ undo := by
    obtain ⟨name, -, rfl⟩ := List.mem_map.mp member
    cases undo

theorem numbered_isolated :
    (callsOf "flow-0" (numberedStart ["charge", "notify"]).log).length <
        (callsOf "flow-0" ([[], [("workflowId", .str "flow-0")]].foldl
          (numbered ["charge", "notify"]).handle (numberedStart ["charge", "notify"])).log).length ∧
      SameFor "flow-0"
        ([[], [("workflowId", .str "flow-0")]].foldl (numbered ["charge", "notify"]).handle
          (numberedStart ["charge", "notify"]))
        ([[("workflowId", .str "flow-0")]].foldl (numbered ["charge", "notify"]).handle
          (numberedStart ["charge", "notify"])) :=
  ⟨by decide, handles_isolated (numbered_steady ["charge", "notify"]) numbered_elsewhere⟩

end Workflow

end Steveo
