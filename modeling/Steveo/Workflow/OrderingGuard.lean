import Steveo.Workflow.Confinement

/-!
# The ordering check

Before it runs a step, the engine checks the results of the steps before it, but for the last of
them.  This file says for which rows the check does what it is for.
-/

namespace Steveo

open Steveo.Action Engine

namespace Workflow

variable {workflow : Workflow} {row : WorkflowState} {index : Nat} {step : Step}

/-- The results column has an entry for every step before an index. -/
def HasResults (workflow : Workflow) (row : WorkflowState) (index : Nat) : Prop :=
  ∀ earlier earlierStep, workflow.steps[earlier]? = some earlierStep → earlier < index →
    (row.result earlierStep.name).isSome = true

/-- The step of a row is run only if every earlier step has a result; otherwise an error is
recorded and the rollback started, and no step is run. -/
def GuardsOrder (workflow : Workflow) (row : WorkflowState) (index : Nat) (step : Step) : Prop :=
  ∀ workflowId payload session, session.table workflowId = some row →
    (executions (exec (workflow.executeNextStep ⟨workflowId, payload, step, row⟩) session).2.log ≠
        executions session.log →
      workflow.HasResults row index) ∧
    (¬ workflow.HasResults row index →
      exec (workflow.executeNextStep ⟨workflowId, payload, step, row⟩) session =
          exec (workflow.failStep ⟨workflowId, payload, step, row⟩
            "Error: Out of order step execution detected on workflow") session ∧
        executions (exec (workflow.executeNextStep ⟨workflowId, payload, step, row⟩)
          session).2.log = executions session.log)

/-- The check fails on a step before the last one, or else the last step before an index has a
result and so has every earlier one under whose name objects inherit a property. -/
def Covered (workflow : Workflow) (row : WorkflowState) (index : Nat) : Prop :=
  (∀ earlier earlierStep, workflow.steps[earlier]? = some earlierStep → earlier < index →
    earlier + 1 = index ∨ earlierStep.name ∈ OBJECT_PROTOTYPE →
      (row.result earlierStep.name).isSome = true) ∨
  ∃ earlier earlierStep, workflow.steps[earlier]? = some earlierStep ∧ earlier + 1 < index ∧
    row.hasResult earlierStep.name = false

/-- What counts as a result is an entry, but for what objects inherit. -/
theorem isSome_of_hasResult {name : String} (plain : name ∉ OBJECT_PROTOTYPE)
    (holds : row.hasResult name = true) : (row.result name).isSome = true := by
  cases columns : row.results with
  | none => simp [WorkflowState.hasResult, columns] at holds
  | some results =>
      cases entry : results.get name with
      | none => simp [WorkflowState.hasResult, columns, Fields.truthyAt, entry, plain] at holds
      | some value => simp [WorkflowState.result, columns, entry]

/-- The check lets a row through whose results are incomplete exactly if it is not covered. -/
theorem covered_iff (distinct : workflow.DistinctNames)
    (at_index : workflow.steps[index]? = some step) :
    workflow.Covered row index ↔
      (workflow.expectedOrder step row = true → workflow.HasResults row index) := by
  rw [(distinct.firstNamed at_index).expectedOrder_iff]
  constructor
  · rintro (present | ⟨earlier, earlierStep, found, before, refused⟩) checked earlier' step' found'
      before'
    · by_cases last : earlier' + 1 = index
      · exact present earlier' step' found' before' (.inl last)
      · by_cases inherited : step'.name ∈ OBJECT_PROTOTYPE
        · exact present earlier' step' found' before' (.inr inherited)
        · exact isSome_of_hasResult inherited (checked earlier' step' found' (by omega))
    · exact absurd (checked earlier earlierStep found before) (by simp [refused])
  · intro complete
    by_cases checked : ∀ earlier earlierStep, workflow.steps[earlier]? = some earlierStep →
        earlier + 1 < index → row.hasResult earlierStep.name = true
    · exact Or.inl fun earlier earlierStep found before _ =>
        complete checked earlier earlierStep found before
    · push Not at checked
      obtain ⟨earlier, earlierStep, found, before, refused⟩ := checked
      exact Or.inr ⟨earlier, earlierStep, found, before, Bool.eq_false_iff.mpr refused⟩

/-- A row that the check refuses fails with the error of the check. -/
theorem exec_executeNextStep_unordered {context : ExecuteContext}
    (service : context.state.serviceId = workflow.options.serviceId)
    (unordered : workflow.expectedOrder context.step context.state = false) (session : Session) :
    exec (workflow.executeNextStep context) session =
      exec (workflow.failStep context "Error: Out of order step execution detected on workflow")
        session := by
  have refused : exec (workflow.runStep context) session =
      (.error "Error: Out of order step execution detected on workflow", session) := by
    simp only [runStep, service, beq_self_eq_true, unordered, exec_bind, exec_ensure_true,
      exec_ensure_false]
  rw [executeNextStep, exec_bind_ok (exec_attempt _ _), refused]

/-- The step of a row is run only after all steps before it exactly if the row is covered. -/
theorem guardsOrder_iff (distinct : workflow.DistinctNames)
    (at_index : workflow.steps[index]? = some step)
    (service : row.serviceId = workflow.options.serviceId) :
    workflow.GuardsOrder row index step ↔ workflow.Covered row index := by
  rw [covered_iff distinct at_index]
  constructor
  · intro guards ordered
    by_contra incomplete
    have called : .execute "" step.name [] ∈
        (exec (workflow.executeNextStep ⟨"", [], step, row⟩) ⟨fun _ => some row, 0, []⟩).2.log :=
      execute_mem_executeNextStep rfl service ordered
    have quiet := ((guards "" [] ⟨fun _ => some row, 0, []⟩ rfl).2 incomplete).2
    have runs : ("", step.name) ∈ executions
        (exec (workflow.executeNextStep ⟨"", [], step, row⟩) ⟨fun _ => some row, 0, []⟩).2.log :=
      List.mem_filterMap.mpr ⟨_, called, rfl⟩
    rw [quiet] at runs
    cases runs
  · intro covered workflowId payload session stored
    have refuses (incomplete : ¬ workflow.HasResults row index) :
        workflow.expectedOrder step row = false :=
      Bool.eq_false_iff.mpr fun ordered => incomplete (covered ordered)
    have unordered (incomplete : ¬ workflow.HasResults row index) :
        exec (workflow.executeNextStep ⟨workflowId, payload, step, row⟩) session =
            exec (workflow.failStep ⟨workflowId, payload, step, row⟩
              "Error: Out of order step execution detected on workflow") session :=
      exec_executeNextStep_unordered service (refuses incomplete) session
    have quiet (incomplete : ¬ workflow.HasResults row index) :
        executions (exec (workflow.executeNextStep ⟨workflowId, payload, step, row⟩)
          session).2.log = executions session.log := by
      rw [unordered incomplete]
      exact (failStep_unwound distinct ⟨workflowId, payload, step, row⟩ at_index session stored
        _).executions_eq
    exact ⟨fun runs => by_contra fun incomplete => runs (quiet incomplete),
      fun incomplete => ⟨unordered incomplete, quiet incomplete⟩⟩

/-- A row that stands at a step with some results. -/
def standingAt (current : String) (results : Fields) : WorkflowState where
  workflowId := "flow-1"
  serviceId := "DEFAULT"
  completed := false
  current := current
  initial := []
  results := some results
  errors := none

/-- The check refuses the third step when there are no results at all. -/
theorem third_step_guarded : (resolving ["a", "b", "c"]).GuardsOrder (standingAt "c" []) 2
    { name := "c", execute := fun _ _ => .ok (some (.bool true)) } := by
  have distinct : (resolving ["a", "b", "c"]).DistinctNames := by
    simp [DistinctNames, resolving, accepting]
  exact (guardsOrder_iff distinct rfl rfl).mpr (Or.inr ⟨0, _, rfl, by decide, rfl⟩)

/-- The second step is run although the first one has no result, and so is the third one although
the second has none. -/
theorem last_result_unchecked :
    ¬ (resolving ["a", "b", "c"]).GuardsOrder (standingAt "b" []) 1
        { name := "b", execute := fun _ _ => .ok (some (.bool true)) } ∧
      ¬ (resolving ["a", "b", "c"]).GuardsOrder (standingAt "c" [("a", .bool true)]) 2
        { name := "c", execute := fun _ _ => .ok (some (.bool true)) } := by
  constructor
  · intro guards
    have complete := (guards "flow-1" [] ⟨fun _ => some _, 0, []⟩ rfl).1 (by decide)
    exact Bool.false_ne_true (complete 0 _ rfl (by decide))
  · intro guards
    have complete := (guards "flow-1" [] ⟨fun _ => some _, 0, []⟩ rfl).1 (by decide)
    exact Bool.false_ne_true (complete 1 _ rfl (by decide))

end Workflow

end Steveo
