import Steveo.Workflow.Confinement

/-!
# What a step resolves to

The value to which a step resolves travels to the next step in one object with the identifier of
the execution.  This file says when the identifier survives.
-/

namespace Steveo

open Steveo.Action Engine

/-- A message continues an execution with a value: it carries the identifier of the execution and
every property of the value but one of the identifier's name, its delivery reads the row of the
execution, and the step at which the execution stands is called with the whole of it. -/
structure Published.Continues (message : Published) (workflow : Workflow) (workflowId : String)
    (value : Option Json) : Prop where
  identity : message.payload.get "workflowId" = some (.str workflowId)
  continues : ∀ session, exec (workflow.executionId message.payload) session =
    (.ok (.str workflowId), session)
  kept : ∀ key, key ≠ "workflowId" → message.payload.get key = (ownFields value).get key
  handed : ∀ session row step, workflowId ≠ "" → session.table workflowId = some row →
    workflow.Executes row step →
      .execute workflowId step.name message.payload ∈
        (workflow.handle session message.payload).log

namespace Workflow

variable {workflow : Workflow} {workflowId : String}

/-- The messages that an action of the engine publishes in a session. -/
def publishes (action : Engine Unit) (before : Session) : List Published :=
  (publications (exec action before).2.log).drop (publications before.log).length

/-- Effects that publish nothing. -/
def Quiet (before after : Session) : Prop := publications after.log = publications before.log

namespace Quiet

theorem effects : EffectRelation Quiet := ⟨fun _ => rfl, fun first second => second.trans first⟩

theorem record {call : Call} (quiet : call.publication = none) :
    Preserves Quiet (Engine.record call) := by
  intro session
  change publications (session.log ++ [call]) = publications session.log
  simp [quiet]

/-- Recording a call that is no publication and then changing a row. -/
theorem recorded {call : Call} (quiet : call.publication = none)
    (change : WorkflowState → WorkflowState) :
    Preserves Quiet (do Engine.record call; WorkflowRepository.update workflowId change) := by
  refine effects.bind (record quiet) fun _ => ?_
  exact update_preserves effects fun session _ _ => effects.refl session

theorem deleteWorkflow : Preserves Quiet (WorkflowRepository.deleteWorkflow workflowId) := by
  refine effects.bind (record rfl) fun _ session => ?_
  rw [exec_bind_ok (exec_get session)]
  cases session.table workflowId <;> exact effects.refl session

theorem publishes_eq_nil {action : Engine Unit} (quiet : Preserves Quiet action)
    (before : Session) : publishes action before = [] := by
  rw [publishes, quiet before, List.drop_length]

end Quiet

/-- What is published after a step carries the result of that step to the next one. -/
theorem eq_stepMessage_of_publishes {current : String} {value : Option Json} {before : Session}
    {message : Published}
    (published : message ∈ publishes (workflow.publishNextStep current workflowId value) before) :
    ∃ next ∈ workflow.steps, message = workflow.stepMessage workflowId current value next := by
  rw [publishNextStep, getNextStep] at published
  cases position : workflow.getStepIndex current with
  | none =>
      simp only [position] at published
      cases (Quiet.publishes_eq_nil (Quiet.effects.throw _) before ▸ published)
  | some index =>
      simp only [position, pure_bind] at published
      cases following : workflow.steps[index + 1]? with
      | none =>
          have quiet : Preserves Quiet (if workflow.options.deleteOnComplete then
              WorkflowRepository.deleteWorkflow workflowId
            else WorkflowRepository.updateWorkflowCompleted workflowId) := by
            split
            · exact Quiet.deleteWorkflow
            · exact Quiet.recorded rfl _
          simp only [following] at published
          cases (Quiet.publishes_eq_nil quiet before ▸ published)
      | some next =>
          refine ⟨next, List.mem_of_getElem? following, ?_⟩
          have moves : Preserves Quiet
              (WorkflowRepository.updateCurrentStep workflowId next.name) := Quiet.recorded rfl _
          have unmoved := moves before
          simp only [following, publishes, exec_bind] at published
          rcases moved : exec (WorkflowRepository.updateCurrentStep workflowId next.name) before
            with ⟨outcome, middle⟩
          rw [moved] at published unmoved
          have same : publications middle.log = publications before.log := unmoved
          cases outcome with
          | error thrown => simp [same] at published
          | ok _ =>
              rcases publishInternal_cases workflow workflowId
                (workflow.stepMessage workflowId current value next) middle with
                sent | ⟨thrown, after, threw, touches⟩
              · simpa [sent, Workflow.published, same, Call.publication] using published
              · simp [threw, touches.publications_eq, same] at published

/-- Handling a message of a stored execution calls the function of the step at which it stands. -/
theorem execute_mem_handle {payload : Fields} {session : Session} {row : WorkflowState}
    {step : Step} (carries : payload.get "workflowId" = some (.str workflowId))
    (named : workflowId ≠ "") (stored : session.table workflowId = some row)
    (executes : workflow.Executes row step) :
    .execute workflowId step.name payload ∈ (workflow.handle session payload).log := by
  have steps : workflow.steps ≠ [] :=
    List.ne_nil_of_mem (List.mem_of_find?_eq_some executes.found)
  have called : .execute workflowId step.name payload ∈ (exec (workflow.continueFrom workflowId
      payload row) (resumed session workflowId)).2.log :=
    executes.execute_mem_log workflowId payload stored
  rw [handle, subscribe_stored carries named steps stored]
  revert called
  rcases exec (workflow.continueFrom workflowId payload row) (resumed session workflowId) with
    ⟨outcome, after⟩
  intro called
  cases outcome with
  | ok _ => exact List.mem_append_left _ called
  | error thrown => exact List.mem_append_left _ called

theorem get_stepMessage (current : String) (value : Option Json) (next : Step) (key : String) :
    (workflow.stepMessage workflowId current value next).payload.get key =
      ((ownFields value).get key).or
        (if key = "workflowId" then some (.str workflowId) else none) := by
  rw [stepMessage, Fields.get_spread, Fields.get_cons, Fields.get_nil]

/-- A message published for the next step continues the execution with the value of the last one
exactly if that value has no other identifier among its own properties. -/
theorem published_continues_iff {current : String} {value : Option Json} {before : Session}
    {message : Published}
    (published : message ∈ publishes (workflow.publishNextStep current workflowId value) before) :
    message.Continues workflow workflowId value ↔
      (ownFields value).get "workflowId" = none ∨
        (ownFields value).get "workflowId" = some (.str workflowId) := by
  obtain ⟨next, -, rfl⟩ := eq_stepMessage_of_publishes published
  constructor
  · intro continues
    have identity := continues.identity
    rw [get_stepMessage, if_pos rfl] at identity
    cases own : (ownFields value).get "workflowId" with
    | none => exact Or.inl rfl
    | some identifier =>
        rw [own] at identity
        exact Or.inr identity
  · intro own
    have identity : (workflow.stepMessage workflowId current value next).payload.get
        "workflowId" = some (.str workflowId) := by
      rw [get_stepMessage, if_pos rfl]
      rcases own with absent | same
      · rw [absent]
        rfl
      · rw [same]
        rfl
    refine ⟨identity, fun session => exec_executionId_named identity session,
      fun key other => ?_, fun session row step named stored executes =>
        execute_mem_handle identity named stored executes⟩
    rw [get_stepMessage, if_neg other, Option.or_none]

/-- A session in which an execution of two steps stands at the first one. -/
def atFirstStep : Session where
  table := fun _ => some ((resolving ["a", "b"]).initialRow "flow-1"
    { name := "a", execute := fun _ _ => .ok none } [])
  tick := 0
  log := []

/-- A value without an identifier continues its execution. -/
theorem total_continues : ∃ message ∈ publishes ((resolving ["a", "b"]).publishNextStep "a" "flow-1"
      (some (.obj [("total", .num 3)]))) atFirstStep,
    message.Continues (resolving ["a", "b"]) "flow-1" (some (.obj [("total", .num 3)])) :=
  have published : (resolving ["a", "b"]).stepMessage "flow-1" "a"
      (some (.obj [("total", .num 3)])) { name := "b", execute := fun _ _ => .ok _ } ∈
        publishes ((resolving ["a", "b"]).publishNextStep "a" "flow-1"
          (some (.obj [("total", .num 3)]))) atFirstStep := List.mem_singleton_self _
  ⟨_, published, (published_continues_iff published).mpr (Or.inl rfl)⟩

/-- Two steps of which the first resolves to an object with the identifier of another execution. -/
def hijacking : Workflow :=
  accepting <| ["a", "b"].map fun name =>
    { name, execute := fun _ _ => .ok (some (.obj [("workflowId", .str "flow-2")])) }

/-- The message for the second step names the other execution. -/
theorem hijacking_names_other :
    ∃ broker message, hijacking.deliveryRun ⟨fun _ => none, 0, []⟩ [] [] = some broker ∧
      publications broker.session.log = [message] ∧ message.workflowId = "flow-1" ∧
        message.payload.get "workflowId" = some (.str "flow-2") ∧
          ¬ message.Continues hijacking "flow-1" message.result := by
  refine ⟨_, _, rfl, rfl, rfl, rfl, fun continues => ?_⟩
  have identity : some (Json.str "flow-2") = some (.str "flow-1") := continues.identity
  simp at identity

end Workflow

end Steveo
