import Mathlib.Data.List.Induction
import Steveo.Workflow.Delivery

/-!
# Workflows whose steps all succeed

When every step resolves and every message is handed over and delivered once, an execution passes
from step to step.  The ordering check of the engine tests earlier results as conditions, so that
it stops such an execution after a falsy result, unless objects inherit something under the name of
the step; these are, with steps that have no name, the only ways in which it stops.
-/

namespace Steveo

open Steveo.Action Engine

/-- The value to which a step's function resolves. -/
def Step.resolved (step : Step) (tick : Nat) (payload : Fields) : Option Json :=
  match step.execute tick payload with
  | .ok value => value
  | .error _ => none

/-- A call that belongs to a failed execution. -/
def Call.OfFailure : Call → Prop
  | .rollback _ _ | .storeExecuteError _ _ _ => True
  | _ => False

namespace Workflow

/-- What the step at an index is called with when every earlier one has resolved.  The engine asks
outside code three times for every step. -/
def payloadAt (workflow : Workflow) (workflowId : String) (tick : Nat) (payload : Fields) :
    Nat → Fields
  | 0 => payload
  | index + 1 =>
      Fields.spread [("workflowId", .str workflowId)] <| ownFields <|
        workflow.steps[index]?.bind fun step =>
          step.resolved (tick + 3 * index) (workflow.payloadAt workflowId tick payload index)

/-- The value to which the step at an index resolves when every earlier one has resolved. -/
def resultAt (workflow : Workflow) (workflowId : String) (tick : Nat) (payload : Fields)
    (index : Nat) : Option Json :=
  workflow.steps[index]?.bind fun step =>
    step.resolved (tick + 3 * index) (workflow.payloadAt workflowId tick payload index)

/-- The workflow's steps have distinct names and resolve to values without a `workflowId`, and the
producer accepts every message. -/
structure Succeeds (workflow : Workflow) : Prop where
  distinct : workflow.DistinctNames
  resolves : ∀ step ∈ workflow.steps, ∀ tick payload,
    ∃ value, step.execute tick payload = .ok value ∧ (ownFields value).get "workflowId" = none
  ready : ∀ tick topic, workflow.host.initializeTopic tick topic = .ok ()
  sent : ∀ tick topic payload, workflow.host.send tick topic payload = .ok ()

/-- The steps of an execution that ran to its end, without any call of a failed execution. -/
structure Completed (workflow : Workflow) (workflowId : String) (session : Session) : Prop where
  executions : executions session.log = workflow.steps.map fun step => (workflowId, step.name)
  unfailed : ∀ call ∈ session.log, ¬ call.OfFailure
  ended : if workflow.options.deleteOnComplete then session.table workflowId = none
    else ∃ row, session.table workflowId = some row ∧ row.completed = true

/-- Every published message was delivered once. -/
def EachOnce (deliveries : List Nat) (broker : Broker) : Prop :=
  deliveries.Nodup ∧ ∀ index < (publications broker.session.log).length, index ∈ deliveries

/-- However the published messages are delivered, each once, the execution runs to its end with
the last of as many messages as there are steps; and they can be so delivered. -/
def RunsToCompletion (workflow : Workflow) (session : Session) (payload : Fields) : Prop :=
  (∃ deliveries final, workflow.deliveryRun session payload deliveries = some final ∧
    EachOnce deliveries final) ∧
  ∀ deliveries final, workflow.deliveryRun session payload deliveries = some final →
    EachOnce deliveries final →
      deliveries.length + 1 = workflow.steps.length ∧
        workflow.Completed (workflow.freshId session) final.session

section Execution

variable (workflow : Workflow) (workflowId : String) (tick : Nat) (payload : Fields)

/-- The row of an execution whose next step is the one at an index. -/
structure AtStep (index : Nat) (step : Step) (row : WorkflowState) (session : Session) :
    Prop where
  found : session.table workflowId = some row
  current : row.current = step.name
  clean : row.errorList = []
  service : row.serviceId = workflow.options.serviceId
  results : ∀ earlier earlierStep, workflow.steps[earlier]? = some earlierStep →
    earlier < index → (row.hasResult earlierStep.name = true ↔
      WorkflowState.Counts earlierStep.name (workflow.resultAt workflowId tick payload earlier))
  present : 0 < index → row.results.isSome = true
  inherited : row.result "__proto__" = none
  clock : session.tick = tick + 3 * index

/-- An execution of which the steps before an index have run, one message each. -/
structure Reached (index : Nat) (session : Session) : Prop where
  executions : executions session.log =
    (workflow.steps.take index).map fun step => (workflowId, step.name)
  payloads : (publications session.log).map Published.payload =
    (List.range (min index (workflow.steps.length - 1))).map fun earlier =>
      workflow.payloadAt workflowId tick payload (earlier + 1)
  unfailed : ∀ call ∈ session.log, ¬ call.OfFailure
  standing : ∀ step, workflow.steps[index]? = some step →
    ∃ row, workflow.AtStep workflowId tick payload index step row session
  ended : workflow.steps.length ≤ index →
    if workflow.options.deleteOnComplete then session.table workflowId = none
    else ∃ row, session.table workflowId = some row ∧ row.completed = true

/-- The step at an index is not refused: it has a name and the ordering check accepts it. -/
def Passes (index : Nat) : Prop :=
  (∀ step, workflow.steps[index]? = some step → step.name ≠ "") ∧
    ∀ earlier earlierStep, workflow.steps[earlier]? = some earlierStep → earlier + 1 < index →
      WorkflowState.Counts earlierStep.name (workflow.resultAt workflowId tick payload earlier)

end Execution

variable {workflow : Workflow} {workflowId : String} {tick : Nat} {payload : Fields}

theorem AtStep.runnable {index : Nat} {step : Step} {row : WorkflowState} {session : Session}
    (succeeds : workflow.Succeeds) (at_index : workflow.steps[index]? = some step)
    (standing : workflow.AtStep workflowId tick payload index step row session)
    (passes : workflow.Passes workflowId tick payload index) :
    workflow.Runnable row index step where
  at_index := at_index
  name := standing.current.symm
  named := passes.1 step at_index
  clean := standing.clean
  service := standing.service
  ordered := by
    rw [(succeeds.distinct.firstNamed at_index).expectedOrder_iff]
    intro earlier earlierStep found before
    exact (standing.results earlier earlierStep found (by omega)).mpr
      (passes.2 earlier earlierStep found before)

/-- Where the current step resolves, its function is called and its result stored. -/
theorem exec_continueFrom_runs {index : Nat} {step : Step} {row : WorkflowState}
    {session : Session} (succeeds : workflow.Succeeds)
    (standing : workflow.AtStep workflowId tick payload index step row session)
    (runnable : workflow.Runnable row index step) :
    exec (workflow.continueFrom workflowId
        (workflow.payloadAt workflowId tick payload index) row) session =
      match exec (workflow.publishNextStep step.name workflowId
          (workflow.resultAt workflowId tick payload index))
          (ran session ⟨workflowId, workflow.payloadAt workflowId tick payload index, step, row⟩
            (workflow.resultAt workflowId tick payload index)) with
      | (.ok _, after) => (.ok (), after)
      | (.error thrown, after) =>
          exec (workflow.failStep
            ⟨workflowId, workflow.payloadAt workflowId tick payload index, step,
              row.withResult row.current (workflow.resultAt workflowId tick payload index)⟩
            thrown) after := by
  obtain ⟨value, resolved, -⟩ := succeeds.resolves step
    (List.mem_of_getElem? runnable.at_index) session.tick
    (workflow.payloadAt workflowId tick payload index)
  have result : workflow.resultAt workflowId tick payload index = value := by
    rw [resultAt, runnable.at_index, Option.bind_some, Step.resolved, ← standing.clock, resolved]
  have found := (succeeds.distinct.firstNamed runnable.at_index).find_name
  have current : (row.current != "") = true := by simpa [standing.current] using runnable.named
  have runs := exec_runStep
    ⟨workflowId, workflow.payloadAt workflowId tick payload index, step, row⟩ standing.found
    runnable.service runnable.ordered resolved
  rw [continueFrom, current, exec_bind_ok (exec_ensure_true _ _), standing.current, found]
  simp only [runnable.clean, List.isEmpty_nil, if_true]
  rw [executeNextStep, exec_bind_ok (exec_attempt _ _), runs, result]
  simp only [exec_bind, exec_attempt, standing.current]
  rcases exec (workflow.publishNextStep step.name workflowId value)
    (ran session ⟨workflowId, workflow.payloadAt workflowId tick payload index, step, row⟩ value)
    with ⟨outcome, after⟩
  cases outcome with
  | ok _ => rfl
  | error thrown => rfl

/-- The row with which an execution stands at its next step. -/
theorem AtStep.next {index : Nat} {step next : Step} {row : WorkflowState}
    {session after : Session} (succeeds : workflow.Succeeds)
    (at_index : workflow.steps[index]? = some step)
    (standing : workflow.AtStep workflowId tick payload index step row session)
    (found : after.table workflowId = some
      { ranRow row (workflow.resultAt workflowId tick payload index) with current := next.name })
    (clock : after.tick = session.tick + 3) :
    workflow.AtStep workflowId tick payload (index + 1) next
      { ranRow row (workflow.resultAt workflowId tick payload index) with current := next.name }
      after where
  found := found
  current := rfl
  clean := standing.clean
  service := standing.service
  results := by
    intro earlier earlierStep earlier_at before
    change (row.withResult row.current _).hasResult earlierStep.name = true ↔ _
    by_cases same : earlier = index
    · subst same
      obtain rfl : step = earlierStep := Option.some.inj (at_index.symm.trans earlier_at)
      rw [standing.current, WorkflowState.hasResult_withResult_self standing.inherited]
    · have different : earlierStep.name ≠ row.current := by
        rw [standing.current]
        exact fun names => same (succeeds.distinct.eq_of_name_eq earlier_at at_index names)
      rw [WorkflowState.hasResult_withResult_of_ne (standing.present (by omega)) different]
      exact standing.results earlier earlierStep earlier_at (by omega)
  present _ := rfl
  inherited := WorkflowState.result_proto_withResult standing.inherited _ _
  clock := by
    rw [clock, standing.clock]
    omega

theorem take_succ_of_getElem? {index : Nat} {step : Step}
    (at_index : workflow.steps[index]? = some step) :
    workflow.steps.take (index + 1) = workflow.steps.take index ++ [step] := by
  rw [List.take_add_one, at_index, Option.toList_some]

/-- Running the last step takes the execution to its end. -/
theorem Reached.finishes {index : Nat} {step : Step} {row : WorkflowState} {session : Session}
    (at_index : workflow.steps[index]? = some step) (last : workflow.steps[index + 1]? = none)
    (reached : workflow.Reached workflowId tick payload index session) (body : Fields)
    (result : Option Json) (opened : Session) :
    workflow.Reached workflowId tick payload (index + 1)
      (settled opened (.ok (), workflow.finished (ran session ⟨workflowId, body, step, row⟩ result)
        workflowId row result)) where
  executions := by
    simp only [settled, finished]
    split <;> simp [ran, reached.executions, take_succ_of_getElem? at_index, Call.execution]
  payloads := by
    obtain ⟨bound, -⟩ := List.getElem?_eq_some_iff.mp at_index
    have beyond := List.getElem?_eq_none_iff.mp last
    have earlier : min index (workflow.steps.length - 1) = index := by omega
    have later : min (index + 1) (workflow.steps.length - 1) = index := by omega
    simp only [settled, finished]
    split <;> simp [ran, reached.payloads, earlier, later, Call.publication]
  unfailed := by
    simp only [settled, finished]
    split <;> simpa [ran, or_imp, forall_and, Call.OfFailure] using reached.unfailed
  standing := by
    intro next found
    simp [last] at found
  ended := by
    intro _
    simp only [settled, finished]
    split
    · simp
    · simp

/-- Running a step that has a next one takes the execution to that step. -/
theorem Reached.moves_on {index : Nat} {step next : Step} {row : WorkflowState} {session : Session}
    (succeeds : workflow.Succeeds) (at_index : workflow.steps[index]? = some step)
    (next_at : workflow.steps[index + 1]? = some next)
    (reached : workflow.Reached workflowId tick payload index session)
    (standing : workflow.AtStep workflowId tick payload index step row session) (body : Fields)
    (opened : Session) :
    workflow.Reached workflowId tick payload (index + 1)
      (settled opened (.ok (), published
        (moved (ran session ⟨workflowId, body, step, row⟩
            (workflow.resultAt workflowId tick payload index)) workflowId row
          (workflow.resultAt workflowId tick payload index) next)
        (workflow.stepMessage workflowId step.name
          (workflow.resultAt workflowId tick payload index) next))) := by
  obtain ⟨bound, -⟩ := List.getElem?_eq_some_iff.mp next_at
  refine ⟨?_, ?_, ?_, ?_, fun short => by omega⟩
  · simp [settled, published, moved, ran, reached.executions, take_succ_of_getElem? at_index,
      Call.execution]
  · have earlier : min index (workflow.steps.length - 1) = index := by omega
    have later : min (index + 1) (workflow.steps.length - 1) = index + 1 := by omega
    simp [settled, published, moved, ran, reached.payloads, earlier, later, List.range_succ,
      Call.publication, stepMessage, payloadAt, resultAt]
  · simpa [settled, published, moved, ran, or_imp, forall_and, Call.OfFailure]
      using reached.unfailed
  · intro candidate candidate_at
    obtain rfl : next = candidate := Option.some.inj (next_at.symm.trans candidate_at)
    refine ⟨_, standing.next succeeds at_index ?_ ?_⟩
    · simp [settled, published, moved]
    · simp [settled, published, moved, ran]

/-- A step that is not refused runs, and the execution reaches the next step or its end. -/
theorem Reached.advances {index : Nat} {step : Step} {row : WorkflowState} {session : Session}
    (succeeds : workflow.Succeeds) (at_index : workflow.steps[index]? = some step)
    (reached : workflow.Reached workflowId tick payload index session)
    (standing : workflow.AtStep workflowId tick payload index step row session)
    (passes : workflow.Passes workflowId tick payload index) (opened : Session) :
    workflow.Reached workflowId tick payload (index + 1)
      (settled opened (exec (workflow.continueFrom workflowId
        (workflow.payloadAt workflowId tick payload index) row) session)) := by
  have runnable := standing.runnable succeeds at_index passes
  have stored : (ran session ⟨workflowId, workflow.payloadAt workflowId tick payload index, step,
      row⟩ (workflow.resultAt workflowId tick payload index)).table workflowId =
        some (ranRow row (workflow.resultAt workflowId tick payload index)) := by
    simp [ran]
  rw [exec_continueFrom_runs succeeds standing runnable]
  cases next_at : workflow.steps[index + 1]? with
  | none =>
      rw [exec_publishNextStep_last (succeeds.distinct.firstNamed at_index) next_at stored]
      exact reached.finishes at_index next_at _ _ opened
  | some next =>
      rw [exec_publishNextStep_next (succeeds.distinct.firstNamed at_index) next_at stored,
        exec_publishInternal (succeeds.ready _ _) (succeeds.sent _ _ _)]
      exact reached.moves_on succeeds at_index next_at standing _ opened

/-- A step that is refused leaves the published messages and the steps run as they were. -/
theorem AtStep.refuses {index : Nat} {step : Step} {row : WorkflowState} {session : Session}
    (succeeds : workflow.Succeeds) (at_index : workflow.steps[index]? = some step)
    (standing : workflow.AtStep workflowId tick payload index step row session)
    (refused : ¬ workflow.Passes workflowId tick payload index) (body : Fields)
    (opened : Session) :
    publications (settled opened
        (exec (workflow.continueFrom workflowId body row) session)).log =
      publications session.log ∧
    executions (settled opened
        (exec (workflow.continueFrom workflowId body row) session)).log =
      executions session.log := by
  rw [settled_publications, settled_executions]
  by_cases named : step.name = ""
  · have current : (row.current != "") = false := by simp [standing.current, named]
    rw [continueFrom, current, exec_bind_error (exec_ensure_false _ _)]
    exact ⟨rfl, rfl⟩
  · have never : ∀ {ranIndex : Nat} {ranStep : Step}, ¬ workflow.Runnable row ranIndex ranStep := by
      intro ranIndex ranStep runnable
      have same : ranIndex = index := succeeds.distinct.eq_of_name_eq runnable.at_index at_index
        (runnable.name.trans standing.current)
      subst same
      obtain rfl : step = ranStep := Option.some.inj (at_index.symm.trans runnable.at_index)
      have ordered :=
        ((succeeds.distinct.firstNamed at_index).expectedOrder_iff row).mp runnable.ordered
      refine refused ⟨fun candidate found => ?_, fun earlier earlierStep earlier_at before => ?_⟩
      · obtain rfl : step = candidate := Option.some.inj (at_index.symm.trans found)
        exact named
      · exact (standing.results earlier earlierStep earlier_at (by omega)).mp
          (ordered earlier earlierStep earlier_at before)
    have handled := continueFrom_handled succeeds.distinct workflowId body standing.found
    revert handled
    rcases exec (workflow.continueFrom workflowId body row) session with ⟨outcome, after⟩
    intro handled
    cases handled with
    | rejected unwound => exact ⟨unwound.publications_eq, unwound.executions_eq⟩
    | failed runnable _ => exact (never runnable).elim
    | advanced runnable _ _ _ => exact (never runnable).elim
    | finished runnable _ _ _ => exact (never runnable).elim

/-- Calls that neither run, publish nor fail do not change how far an execution has come. -/
theorem Reached.logged {index : Nat} {session : Session} {call : Call}
    (reached : workflow.Reached workflowId tick payload index session)
    (publishes : call.publication = none) (runs : call.execution = none)
    (unfailed : ¬ call.OfFailure) :
    workflow.Reached workflowId tick payload index (session.logged call) where
  executions := by simp [runs, reached.executions]
  payloads := by simp [publishes, reached.payloads]
  unfailed := by
    intro candidate member
    rcases List.mem_append.mp member with earlier | new
    · exact reached.unfailed candidate earlier
    · rwa [List.mem_singleton.mp new]
  standing := by
    intro step found
    obtain ⟨row, standing⟩ := reached.standing step found
    exact ⟨row, ⟨standing.found, standing.current, standing.clean, standing.service,
      standing.results, standing.present, standing.inherited, standing.clock⟩⟩
  ended := reached.ended

/-! ## Single messages -/

theorem payloadAt_succ_workflowId (succeeds : workflow.Succeeds) (index : Nat) :
    (workflow.payloadAt workflowId tick payload (index + 1)).get "workflowId" =
      some (.str workflowId) := by
  have absent : (ownFields (workflow.steps[index]?.bind fun step =>
      step.resolved (tick + 3 * index)
        (workflow.payloadAt workflowId tick payload index))).get "workflowId" = none := by
    cases found : workflow.steps[index]? with
    | none => rfl
    | some step =>
        obtain ⟨value, resolved, absent⟩ := succeeds.resolves step (List.mem_of_getElem? found)
          (tick + 3 * index) (workflow.payloadAt workflowId tick payload index)
        simpa [Step.resolved, resolved] using absent
  rw [payloadAt, Fields.get_spread, absent]
  simp [Fields.get_cons]

theorem Reached.payload_eq {index : Nat} {session : Session}
    (reached : workflow.Reached workflowId tick payload index session) {position : Nat}
    {message : Published} (found : (publications session.log)[position]? = some message) :
    message.payload = workflow.payloadAt workflowId tick payload (position + 1) := by
  have mapped := congrArg (fun payloads => payloads[position]?) reached.payloads
  simp only [List.getElem?_map, found, Option.map_some] at mapped
  obtain ⟨earlier, ranged, equal⟩ := Option.map_eq_some_iff.mp mapped.symm
  obtain ⟨bound, same⟩ := List.getElem?_eq_some_iff.mp ranged
  rw [List.getElem_range] at same
  rw [← equal, same]

theorem Reached.publications_length {index : Nat} {session : Session}
    (reached : workflow.Reached workflowId tick payload index session) :
    (publications session.log).length = min index (workflow.steps.length - 1) := by
  simpa using congrArg List.length reached.payloads

/-- A new execution stands at its first step. -/
theorem atStep_begun {session : Session} {firstStep : Step} :
    workflow.AtStep workflowId (session.tick + 1) payload 0 firstStep
      (workflow.initialRow workflowId firstStep payload)
      (workflow.begun session.ticked workflowId firstStep payload) where
  found := begun_table workflow _ workflowId firstStep payload
  current := rfl
  clean := rfl
  service := rfl
  results := by
    intro earlier earlierStep _ before
    omega
  present := by omega
  inherited := rfl
  clock := rfl

theorem reached_begun {session : Session} (fresh : session.log = []) {firstStep : Step}
    (first : workflow.steps[0]? = some firstStep) :
    workflow.Reached workflowId (session.tick + 1) payload 0
      (workflow.begun session.ticked workflowId firstStep payload) where
  executions := by simp [begun, created, fresh, Call.execution]
  payloads := by simp [begun, created, fresh, Call.publication]
  unfailed := by simp [begun, created, fresh, Call.OfFailure]
  standing := by
    intro step found
    obtain rfl : firstStep = step := Option.some.inj (first.symm.trans found)
    exact ⟨_, atStep_begun⟩
  ended := by
    intro short
    obtain ⟨bound, -⟩ := List.getElem?_eq_some_iff.mp first
    omega

theorem Reached.resumed {index : Nat} {session : Session}
    (reached : workflow.Reached workflowId tick payload index session) :
    workflow.Reached workflowId tick payload index (resumed session workflowId) := by
  have opened : workflow.Reached workflowId tick payload index (session.logged .transaction) :=
    reached.logged rfl rfl id
  exact opened.logged rfl rfl id

section Deliveries

variable {session : Session}

/-- The first message of an execution. -/
theorem handle_start (succeeds : workflow.Succeeds) (fresh : session.log = [])
    (anonymous : nullish (payload.get "workflowId") = true)
    (unused : session.table (workflow.freshId session) = none) (nonempty : workflow.steps ≠ []) :
    (workflow.Passes (workflow.freshId session) (session.tick + 1) payload 0 →
      workflow.Reached (workflow.freshId session) (session.tick + 1) payload 1
        (workflow.handle session payload)) ∧
    (¬ workflow.Passes (workflow.freshId session) (session.tick + 1) payload 0 →
      publications (workflow.handle session payload).log = [] ∧
        executions (workflow.handle session payload).log = []) := by
  have bound : 0 < workflow.steps.length := List.length_pos_iff.mpr nonempty
  have first := List.getElem?_eq_getElem bound
  rw [handle, subscribe_begun anonymous first unused]
  refine ⟨fun passes => ?_, fun refused => ?_⟩
  · exact (reached_begun fresh first).advances succeeds first atStep_begun passes _
  · obtain ⟨publishes, runs⟩ := atStep_begun.refuses succeeds first refused payload session.ticked
    rw [publishes, runs]
    simp [begun, created, fresh, Call.publication, Call.execution]

/-- A later message of an execution. -/
theorem handle_later (succeeds : workflow.Succeeds) {index : Nat}
    (reached : workflow.Reached workflowId tick payload (index + 1) session)
    (named : workflowId ≠ "") (bound : index + 1 < workflow.steps.length) :
    (workflow.Passes workflowId tick payload (index + 1) →
      workflow.Reached workflowId tick payload (index + 2)
        (workflow.handle session (workflow.payloadAt workflowId tick payload (index + 1)))) ∧
    (¬ workflow.Passes workflowId tick payload (index + 1) →
      publications (workflow.handle session
          (workflow.payloadAt workflowId tick payload (index + 1))).log =
        publications session.log ∧
      executions (workflow.handle session
          (workflow.payloadAt workflowId tick payload (index + 1))).log =
        executions session.log) := by
  have at_index := List.getElem?_eq_getElem bound
  have nonempty : workflow.steps ≠ [] := by
    rintro none
    simp [none] at bound
  obtain ⟨row, standing⟩ := reached.resumed.standing _ at_index
  have found : session.table workflowId = some row := standing.found
  rw [handle,
    subscribe_stored (payloadAt_succ_workflowId succeeds index) named nonempty found]
  refine ⟨fun passes => ?_, fun refused => ?_⟩
  · exact reached.resumed.advances succeeds at_index standing passes session
  · obtain ⟨publishes, runs⟩ := standing.refuses succeeds at_index refused
      (workflow.payloadAt workflowId tick payload (index + 1)) session
    rw [publishes, runs]
    simp [Workflow.resumed, Call.publication, Call.execution]

theorem deliveryRun_append (deliveries : List Nat) (index : Nat) :
    workflow.deliveryRun session payload (deliveries ++ [index]) =
      (workflow.deliveryRun session payload deliveries).bind fun broker =>
        workflow.delivery.step broker (.deliver index) := by
  rw [deliveryRun, List.map_append, ← List.cons_append, System.run_append, deliveryRun]
  congr 1
  funext broker
  exact Option.bind_fun_some _

theorem deliveryRun_nil (anonymous : nullish (payload.get "workflowId") = true) :
    workflow.deliveryRun session payload [] =
      some ⟨workflow.handle session payload, [workflow.freshId session], []⟩ := by
  simp [deliveryRun, delivery, anonymous]

theorem deliveryRun_range_succ {count : Nat} {broker : Broker} {message : Published}
    (run : workflow.deliveryRun session payload (List.range count) = some broker)
    (found : (publications broker.session.log)[count]? = some message) :
    workflow.deliveryRun session payload (List.range (count + 1)) =
      some ⟨workflow.handle broker.session message.payload, broker.started,
        broker.delivered ++ [count]⟩ := by
  rw [List.range_succ, deliveryRun_append, run, Option.bind_some]
  simp [delivery, found]

/-- The setting of a run: a new execution of a workflow whose steps all succeed. -/
structure Fresh (workflow : Workflow) (session : Session) (payload : Fields) : Prop where
  succeeds : workflow.Succeeds
  nonempty : workflow.steps ≠ []
  empty : session.log = []
  anonymous : nullish (payload.get "workflowId") = true
  unused : session.table (workflow.freshId session) = none

/-- While no step is refused, delivering the messages in the order of their publication passes
from step to step. -/
theorem deliveryRun_range (fresh : workflow.Fresh session payload) (count : Nat)
    (bound : count < workflow.steps.length)
    (passes : ∀ index ≤ count,
      workflow.Passes (workflow.freshId session) (session.tick + 1) payload index) :
    ∃ final, workflow.deliveryRun session payload (List.range count) = some final ∧
      workflow.Reached (workflow.freshId session) (session.tick + 1) payload (count + 1)
        final.session := by
  have started := handle_start fresh.succeeds fresh.empty fresh.anonymous fresh.unused
    fresh.nonempty
  induction count with
  | zero => exact ⟨_, deliveryRun_nil fresh.anonymous, started.1 (passes 0 le_rfl)⟩
  | succ count induction =>
      obtain ⟨broker, run, reached⟩ := induction (by omega) fun index le => passes index (by omega)
      have position : count < (publications broker.session.log).length := by
        rw [reached.publications_length]
        omega
      have found := List.getElem?_eq_getElem position
      refine ⟨_, deliveryRun_range_succ run found, ?_⟩
      rw [reached.payload_eq found]
      exact (handle_later fresh.succeeds reached (workflow.freshId_ne_empty session) bound).1
        (passes (count + 1) le_rfl)

/-- While no step is refused, there is no other way to deliver each message once. -/
theorem deliveries_eq_range (fresh : workflow.Fresh session payload)
    (passes : ∀ index < workflow.steps.length,
      workflow.Passes (workflow.freshId session) (session.tick + 1) payload index)
    (deliveries : List Nat) (once : deliveries.Nodup) {final : Broker}
    (run : workflow.deliveryRun session payload deliveries = some final) :
    deliveries = List.range deliveries.length ∧ deliveries.length < workflow.steps.length := by
  induction deliveries using List.reverseRecOn generalizing final with
  | nil => exact ⟨rfl, List.length_pos_iff.mpr fresh.nonempty⟩
  | append_singleton deliveries index induction =>
      obtain ⟨once, -, apart⟩ := List.nodup_append'.mp once
      rw [deliveryRun_append] at run
      obtain ⟨broker, run, step⟩ := Option.bind_eq_some_iff.mp run
      obtain ⟨range, short⟩ := induction once run
      obtain ⟨reached_broker, run', reached⟩ := deliveryRun_range fresh deliveries.length short
        fun earlier le => passes earlier (by omega)
      rw [← range, run] at run'
      obtain rfl := Option.some.inj run'
      obtain ⟨message, found, -⟩ := delivery_deliver step
      obtain ⟨position, -⟩ := List.getElem?_eq_some_iff.mp found
      rw [reached.publications_length] at position
      have new : ¬ index < deliveries.length := by
        intro old
        rw [range] at apart
        exact apart (List.mem_range.mpr old) (List.mem_singleton.mpr rfl)
      have next : index = deliveries.length := by omega
      constructor
      · rw [List.length_append, List.length_singleton, List.range_succ, ← range, next]
      · rw [List.length_append, List.length_singleton]
        omega

/-- The first step that is refused ends the run before that step has been run. -/
theorem deliveryRun_refused (fresh : workflow.Fresh session payload) (index : Nat)
    (bound : index < workflow.steps.length)
    (refused : ¬ workflow.Passes (workflow.freshId session) (session.tick + 1) payload index)
    (passes : ∀ earlier < index,
      workflow.Passes (workflow.freshId session) (session.tick + 1) payload earlier) :
    ∃ final, workflow.deliveryRun session payload (List.range index) = some final ∧
      (publications final.session.log).length = index ∧
        (executions final.session.log).length = index := by
  cases index with
  | zero =>
      obtain ⟨publishes, runs⟩ := (handle_start fresh.succeeds fresh.empty fresh.anonymous
        fresh.unused fresh.nonempty).2 refused
      refine ⟨_, deliveryRun_nil fresh.anonymous, ?_, ?_⟩
      · rw [publishes, List.length_nil]
      · rw [runs, List.length_nil]
  | succ index =>
      obtain ⟨broker, run, reached⟩ := deliveryRun_range fresh index (by omega)
        fun earlier le => passes earlier (by omega)
      have published := reached.publications_length
      have position : index < (publications broker.session.log).length := by omega
      have found := List.getElem?_eq_getElem position
      obtain ⟨publishes, runs⟩ := (handle_later fresh.succeeds reached
        (workflow.freshId_ne_empty session) bound).2 refused
      rw [← reached.payload_eq found] at publishes runs
      refine ⟨_, deliveryRun_range_succ run found, ?_, ?_⟩
      · rw [publishes, published]
        omega
      · rw [runs, reached.executions, List.length_map, List.length_take]
        omega

/-- An execution runs to completion exactly where no step is refused. -/
theorem runsToCompletion_iff_passes (fresh : workflow.Fresh session payload) :
    workflow.RunsToCompletion session payload ↔ ∀ index < workflow.steps.length,
      workflow.Passes (workflow.freshId session) (session.tick + 1) payload index := by
  have positive := List.length_pos_iff.mpr fresh.nonempty
  constructor
  · rintro ⟨-, completes⟩ index
    induction index using Nat.strong_induction_on with
    | _ index induction =>
        intro bound
        by_contra refused
        obtain ⟨final, run, publishes, runs⟩ := deliveryRun_refused fresh index bound refused
          fun earlier before => induction earlier before (by omega)
        have once : EachOnce (List.range index) final :=
          ⟨List.nodup_range, fun position before => List.mem_range.mpr (publishes ▸ before)⟩
        obtain ⟨-, completed⟩ := completes _ final run once
        rw [completed.executions, List.length_map] at runs
        omega
  · intro passes
    obtain ⟨final, run, reached⟩ := deliveryRun_range fresh (workflow.steps.length - 1) (by omega)
      fun index le => passes index (by omega)
    have all : workflow.steps.length - 1 + 1 = workflow.steps.length := by omega
    rw [all] at reached
    have published := reached.publications_length
    constructor
    · refine ⟨_, final, run, List.nodup_range, fun index before => List.mem_range.mpr ?_⟩
      omega
    · intro deliveries ended run' once
      obtain ⟨range, short⟩ := deliveries_eq_range fresh passes deliveries once.1 run'
      obtain ⟨reached_end, run'', reached'⟩ := deliveryRun_range fresh deliveries.length short
        fun index le => passes index (by omega)
      rw [← range, run'] at run''
      obtain rfl := Option.some.inj run''
      have delivered : ¬ deliveries.length < (publications ended.session.log).length := by
        intro before
        have member := once.2 _ before
        rw [range, List.mem_range, List.length_range] at member
        exact Nat.lt_irrefl _ member
      rw [reached'.publications_length] at delivered
      have last : deliveries.length + 1 = workflow.steps.length := by omega
      refine ⟨last, ?_, reached'.unfailed, reached'.ended (by omega)⟩
      rw [reached'.executions, last, List.take_length]

/-- Where every step resolves and every message is handed over, an execution runs to completion
exactly if all steps have names and what each step before the last two resolves to counts. -/
theorem runsToCompletion_iff (fresh : workflow.Fresh session payload) :
    workflow.RunsToCompletion session payload ↔
      (∀ step ∈ workflow.steps, step.name ≠ "") ∧
        ∀ index step, workflow.steps[index]? = some step → index + 2 < workflow.steps.length →
          WorkflowState.Counts step.name
            (workflow.resultAt (workflow.freshId session) (session.tick + 1) payload index) := by
  rw [runsToCompletion_iff_passes fresh]
  constructor
  · refine fun passes => ⟨fun step member => ?_, fun index step found before => ?_⟩
    · obtain ⟨index, bound, at_index⟩ := List.getElem_of_mem member
      exact (passes index bound).1 step (List.getElem?_eq_some_iff.mpr ⟨bound, at_index⟩)
    · exact (passes (index + 2) before).2 index step found (by omega)
  · rintro ⟨named, counts⟩ index bound
    exact ⟨fun step found => named step (List.mem_of_getElem? found),
      fun earlier step found before => counts earlier step found (by omega)⟩

end Deliveries

/-- A workflow of three steps that all resolve to one value. -/
def threeSteps (value : Option Json) : Workflow :=
  accepting (["a", "b", "c"].map fun name => { name, execute := fun _ _ => .ok value })

theorem threeSteps_fresh {value : Option Json} (plain : (ownFields value).get "workflowId" = none) :
    (threeSteps value).Fresh ⟨fun _ => none, 0, []⟩ [] where
  succeeds :=
    { distinct := by simp [DistinctNames, threeSteps, accepting]
      resolves := by
        intro step member tick payload
        simp only [threeSteps, accepting, List.map_cons, List.map_nil, List.mem_cons,
          List.not_mem_nil, or_false] at member
        obtain rfl | rfl | rfl := member <;> exact ⟨value, rfl, plain⟩
      ready := fun _ _ => rfl
      sent := fun _ _ _ => rfl }
  nonempty := by simp [threeSteps, accepting]
  empty := rfl
  anonymous := rfl
  unused := rfl

/-- With truthy results the execution of three steps runs to completion. -/
theorem threeSteps_true_completes :
    (threeSteps (some (.bool true))).RunsToCompletion ⟨fun _ => none, 0, []⟩ [] := by
  refine (runsToCompletion_iff (threeSteps_fresh rfl)).mpr ⟨?_, ?_⟩
  · simp [threeSteps, accepting]
  · intro index step found before
    obtain rfl : index = 0 := by
      simp [threeSteps, accepting] at before
      omega
    exact .inl rfl

/-- Three steps that resolve to `null` never complete: the check of the third step takes the
result of the first one for a missing one. -/
theorem threeSteps_null_stops :
    (threeSteps (some .null)).Fresh ⟨fun _ => none, 0, []⟩ [] ∧
      ¬ (threeSteps (some .null)).RunsToCompletion ⟨fun _ => none, 0, []⟩ [] := by
  have fresh : (threeSteps (some .null)).Fresh ⟨fun _ => none, 0, []⟩ [] := threeSteps_fresh rfl
  refine ⟨fresh, fun completes => ?_⟩
  have passes := (runsToCompletion_iff_passes fresh).mp completes 2 (by
    simp [threeSteps, accepting])
  have falsy : (threeSteps (some .null)).resultAt
      ((threeSteps (some .null)).freshId ⟨fun _ => none, 0, []⟩) 1 [] 0 = some .null := rfl
  rcases passes.2 0 _ rfl (by omega) with truth | proto | ⟨undefined, -⟩
  · rw [falsy] at truth
    cases truth
  · exact absurd proto (by decide)
  · rw [falsy] at undefined
    cases undefined

end Workflow

end Steveo
