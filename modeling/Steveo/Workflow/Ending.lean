import Mathlib.Data.Nat.Find
import Steveo.Workflow.Completion
import Steveo.Workflow.Confinement

/-!
# Runs of a workflow with any names

The engine finds its way by the names of the steps.  Where a name is repeated it goes back to the
first step with that name and never comes to the end; where a step has no name it stops there.
-/

namespace Steveo

open Steveo.Action Engine

namespace Workflow

/-- All steps resolve to non-empty objects without a `workflowId`, and the producer accepts every
message. -/
structure Fruitful (workflow : Workflow) : Prop where
  resolves : ∀ step ∈ workflow.steps, ∀ tick payload, ∃ fields : Fields,
    step.execute tick payload = .ok (some (.obj fields)) ∧ fields ≠ [] ∧
      fields.get "workflowId" = none
  ready : ∀ tick topic, workflow.host.initializeTopic tick topic = .ok ()
  sent : ∀ tick topic payload, workflow.host.send tick topic payload = .ok ()

/-- The setting of a run: a new execution of a fruitful workflow. -/
structure Started (workflow : Workflow) (session : Session) (payload : Fields) : Prop where
  fruitful : workflow.Fruitful
  empty : session.log = []
  anonymous : nullish (payload.get "workflowId") = true
  unused : session.table (workflow.freshId session) = none

/-- The execution is marked completed, or its row was deleted. -/
def CompletedOrDeleted (session : Session) (workflowId : String) : Prop :=
  (∃ row, session.table workflowId = some row ∧ row.completed = true) ∨
    (session.table workflowId = none ∧ .deleteWorkflow workflowId ∈ session.log)

/-- The published messages can all be delivered once; and however messages are delivered, none
twice, at most as many steps are run as there are, and the execution is completed or deleted when
all messages have been delivered. -/
def RunEnds (workflow : Workflow) (session : Session) (payload : Fields) : Prop :=
  (∃ deliveries final, workflow.deliveryRun session payload deliveries = some final ∧
    EachOnce deliveries final) ∧
  ∀ deliveries final, workflow.deliveryRun session payload deliveries = some final →
    deliveries.Nodup →
      (executions final.session.log).length ≤ workflow.steps.length ∧
        (EachOnce deliveries final →
          CompletedOrDeleted final.session (workflow.freshId session))

/-! ## The first name that stops the way -/

/-- The step at an index has no name or the name of an earlier one, and all steps before it have
names of their own. -/
structure Stops (workflow : Workflow) (index : Nat) (step : Step) : Prop where
  at_index : workflow.steps[index]? = some step
  blocked : step.name = "" ∨ ∃ earlier < index, ∃ earlierStep,
    workflow.steps[earlier]? = some earlierStep ∧ earlierStep.name = step.name
  passable : ∀ earlier < index, ∀ earlierStep, workflow.steps[earlier]? = some earlierStep →
    earlierStep.name ≠ "" ∧ workflow.FirstNamed earlier earlierStep

/-- A row stands at a step before an index, and all steps before that have results. -/
def Standing (workflow : Workflow) (index : Nat) (row : WorkflowState) : Prop :=
  row.errorList = [] ∧ row.serviceId = workflow.options.serviceId ∧
    row.result "__proto__" = none ∧
    ∃ position < index, ∃ step, workflow.steps[position]? = some step ∧ row.current = step.name ∧
      ∀ earlier < position, ∀ earlierStep, workflow.steps[earlier]? = some earlierStep →
        row.hasResult earlierStep.name = true

/-- An execution has not come to its end: its row is not there and nothing was published, or it is
there and not completed, and stands at no name or at a step before an index. -/
structure Underway (workflow : Workflow) (index : Nat) (workflowId : String) (session : Session) :
    Prop where
  undeleted : .deleteWorkflow workflowId ∉ session.log
  messages : ∀ message ∈ publications session.log,
    message.payload.get "workflowId" = some (.str workflowId)
  row : (session.table workflowId = none ∧ publications session.log = []) ∨
    ∃ row, session.table workflowId = some row ∧ row.completed = false ∧
      (row.current = "" ∨ workflow.Standing index row)

variable {workflow : Workflow} {session : Session} {payload : Fields} {workflowId : String}
  {index : Nat} {stop : Step}

/-- Where a name is repeated or missing, some step is the first one that stops the way. -/
theorem exists_stops (stopped : ¬ (workflow.DistinctNames ∧
    ∀ step ∈ workflow.steps, step.name ≠ "")) : ∃ index step, workflow.Stops index step := by
  classical
  let blocks (index : Nat) : Prop := ∃ step, workflow.steps[index]? = some step ∧
    (step.name = "" ∨ ∃ earlier < index, ∃ earlierStep,
      workflow.steps[earlier]? = some earlierStep ∧ earlierStep.name = step.name)
  have some_blocks : ∃ index, blocks index := by
    by_contra! none
    refine stopped ⟨?_, fun step member unnamed => ?_⟩
    · rw [DistinctNames, List.nodup_iff_getElem?_ne_getElem?]
      intro earlier later before inside same
      rw [List.length_map] at inside
      have later_at := List.getElem?_eq_getElem inside
      have earlier_at := List.getElem?_eq_getElem (l := workflow.steps) (before.trans inside)
      simp only [List.getElem?_map, later_at, earlier_at, Option.map_some, Option.some.injEq]
        at same
      exact none later ⟨_, later_at, .inr ⟨earlier, before, _, earlier_at, same⟩⟩
    · obtain ⟨index, at_index⟩ := List.getElem?_of_mem member
      exact none index ⟨step, at_index, .inl unnamed⟩
  obtain ⟨step, at_index, blocked⟩ := Nat.find_spec some_blocks
  refine ⟨Nat.find some_blocks, step, at_index, blocked, fun earlier before earlierStep found => ?_⟩
  have passable := Nat.find_min some_blocks before
  refine ⟨fun unnamed => passable ⟨earlierStep, found, .inl unnamed⟩, found, ?_⟩
  exact fun other other_lt otherStep other_at same =>
    passable ⟨earlierStep, found, .inr ⟨other, other_lt, otherStep, other_at, same⟩⟩

theorem Underway.not_completedOrDeleted (underway : workflow.Underway index workflowId session) :
    ¬ CompletedOrDeleted session workflowId := by
  rintro (⟨row, found, completed⟩ | ⟨-, deleted⟩)
  · rcases underway.row with ⟨absent, -⟩ | ⟨other, found', uncompleted, -⟩
    · cases absent.symm.trans found
    · obtain rfl := Option.some.inj (found.symm.trans found')
      exact Bool.false_ne_true (uncompleted.symm.trans completed)
  · exact underway.undeleted deleted

/-- All steps up to one that has run have results. -/
theorem hasResult_ranRow {position : Nat} {step : Step} {row : WorkflowState} {fields : Fields}
    (first : workflow.FirstNamed position step) (current : row.current = step.name)
    (inherited : row.result "__proto__" = none)
    (results : ∀ earlier < position, ∀ earlierStep, workflow.steps[earlier]? = some earlierStep →
      row.hasResult earlierStep.name = true)
    {earlier : Nat} (before : earlier ≤ position) {earlierStep : Step}
    (earlier_at : workflow.steps[earlier]? = some earlierStep) :
    (ranRow row (some (.obj fields))).hasResult earlierStep.name = true := by
  change (row.withResult row.current _).hasResult earlierStep.name = true
  rcases Nat.eq_or_lt_of_le before with rfl | before
  · obtain rfl : step = earlierStep := Option.some.inj (first.at_index.symm.trans earlier_at)
    rw [current, WorkflowState.hasResult_withResult_self inherited]
    exact .inl rfl
  · have different : earlierStep.name ≠ row.current := by
      rw [current]
      exact first.earliest earlier before earlierStep earlier_at
    have held := results earlier before earlierStep earlier_at
    rwa [WorkflowState.hasResult_withResult_of_ne (WorkflowState.results_of_hasResult held)
      different]

/-- The row after a step before the one that stops the way: it stands at a step up to the next one
or at no name. -/
theorem Stops.next_standing (stops : workflow.Stops index stop) {position : Nat}
    {step next : Step} {row : WorkflowState} {fields : Fields} (before : position < index)
    (at_position : workflow.steps[position]? = some step) (current : row.current = step.name)
    (clean : row.errorList = []) (service : row.serviceId = workflow.options.serviceId)
    (inherited : row.result "__proto__" = none)
    (results : ∀ earlier < position, ∀ earlierStep, workflow.steps[earlier]? = some earlierStep →
      row.hasResult earlierStep.name = true)
    (next_at : workflow.steps[position + 1]? = some next) :
    next.name = "" ∨ workflow.Standing index
      { ranRow row (some (.obj fields)) with current := next.name } := by
  have first := (stops.passable position before step at_position).2
  have stands {target : Nat} {targetStep : Step} (inside : target < index)
      (reached : target ≤ position + 1) (target_at : workflow.steps[target]? = some targetStep)
      (name : targetStep.name = next.name) : workflow.Standing index
        { ranRow row (some (.obj fields)) with current := next.name } := by
    refine ⟨clean, service, WorkflowState.result_proto_withResult inherited _ _, target, inside,
      targetStep, target_at, name.symm, ?_⟩
    intro earlier earlier_lt earlierStep earlier_at
    exact hasResult_ranRow first current inherited results (by omega) earlier_at
  rcases Nat.lt_or_ge (position + 1) index with inside | reached
  · exact .inr (stands inside le_rfl next_at rfl)
  · obtain rfl : index = position + 1 := by omega
    obtain rfl : stop = next := Option.some.inj (stops.at_index.symm.trans next_at)
    rcases stops.blocked with unnamed | ⟨earlier, earlier_lt, earlierStep, earlier_at, same⟩
    · exact .inl unnamed
    · exact .inr (stands earlier_lt (by omega) earlier_at same)

/-- Continuing an execution that stands before the step that stops the way runs a step and
publishes a message, and the execution is underway still. -/
theorem Stops.continues (stops : workflow.Stops index stop) (fruitful : workflow.Fruitful)
    {row : WorkflowState} (stored : session.table workflowId = some row)
    (uncompleted : row.completed = false) (standing : workflow.Standing index row)
    (undeleted : .deleteWorkflow workflowId ∉ session.log)
    (messages : ∀ message ∈ publications session.log,
      message.payload.get "workflowId" = some (.str workflowId)) (opened : Session) :
    workflow.Underway index workflowId
      (settled opened (exec (workflow.continueFrom workflowId payload row) session)) := by
  obtain ⟨clean, service, inherited, position, before, step, at_position, current, results⟩ :=
    standing
  obtain ⟨named, first⟩ := stops.passable position before step at_position
  have found := current ▸ first.find_name
  have executes : workflow.Executes row step := by
    refine ⟨current ▸ named, found, clean, service, (first.expectedOrder_iff row).mpr ?_⟩
    exact fun earlier earlierStep earlier_at earlier_lt =>
      results earlier (by omega) earlierStep earlier_at
  obtain ⟨fields, resolved, -, anonymous⟩ := fruitful.resolves step
    (List.mem_of_getElem? at_position) session.tick payload
  obtain ⟨bound, -⟩ := List.getElem?_eq_some_iff.mp stops.at_index
  have next_at : workflow.steps[position + 1]? = some workflow.steps[position + 1] :=
    List.getElem?_eq_getElem (by omega)
  have runs := exec_runStep ⟨workflowId, payload, step, row⟩ stored service executes.ordered
    resolved
  have kept : (ran session ⟨workflowId, payload, step, row⟩ (some (.obj fields))).table
      workflowId = some (ranRow row (some (.obj fields))) := by
    simp [ran]
  have publishes := exec_publishNextStep_next first next_at kept
  rw [exec_publishInternal (fruitful.ready _ _) (fruitful.sent _ _ _)] at publishes
  rw [executes.exec_continueFrom, executeNextStep, exec_bind_ok (exec_attempt _ _), runs]
  simp only [exec_bind, exec_attempt, publishes, exec_pure]
  refine ⟨?_, ?_, .inr ⟨{ ranRow row (some (.obj fields)) with
    current := workflow.steps[position + 1].name }, ?_, uncompleted, ?_⟩⟩
  · simpa [settled, published, moved, ran] using undeleted
  · simpa [settled, published, moved, ran, Call.publication, or_imp, forall_and, stepMessage,
      ownFields, Fields.get_spread, anonymous, Fields.get_cons] using messages
  · simp [settled, published, moved]
  · exact stops.next_standing before at_position current clean service inherited results next_at

/-- An execution whose row has no current step throws. -/
theorem exec_continueFrom_unnamed {row : WorkflowState} (unnamed : row.current = "") :
    exec (workflow.continueFrom workflowId payload row) session =
      (.error s!"Error: Workflow state was not found: {workflowId}", session) := by
  have absent : (row.current != "") = false := by simp [unnamed]
  rw [continueFrom, absent, exec_bind_error (exec_ensure_false _ _)]

/-- The first message leaves an execution underway. -/
theorem Stops.starts (stops : workflow.Stops index stop)
    (started : workflow.Started session payload) :
    workflow.Underway index (workflow.freshId session) (workflow.handle session payload) := by
  obtain ⟨bound, -⟩ := List.getElem?_eq_some_iff.mp stops.at_index
  have first : workflow.steps[0]? = some workflow.steps[0] := List.getElem?_eq_getElem (by omega)
  rw [handle, subscribe_begun started.anonymous first started.unused]
  rcases Nat.eq_zero_or_pos index with rfl | later
  · have unnamed : workflow.steps[0].name = "" := by
      rcases stops.blocked with unnamed | ⟨earlier, before, -⟩
      · rwa [Option.some.inj (first.symm.trans stops.at_index)]
      · exact absurd before (Nat.not_lt_zero earlier)
    rw [exec_continueFrom_unnamed unnamed]
    refine ⟨?_, ?_, .inl ⟨started.unused, ?_⟩⟩
    all_goals simp [settled, begun, created, started.empty, Call.publication]
  · refine stops.continues started.fruitful (begun_table _ _ _ _ _) rfl ?_ ?_ ?_ _
    · exact ⟨rfl, rfl, rfl, 0, later, _, first, rfl, fun earlier before => by omega⟩
    all_goals simp [begun, created, started.empty, Call.publication]

/-- A published message leaves an execution underway. -/
theorem Stops.delivers (stops : workflow.Stops index stop) (fruitful : workflow.Fruitful)
    (named : workflowId ≠ "") (underway : workflow.Underway index workflowId session)
    {message : Published} (published : message ∈ publications session.log) :
    workflow.Underway index workflowId (workflow.handle session message.payload) := by
  obtain ⟨bound, -⟩ := List.getElem?_eq_some_iff.mp stops.at_index
  have steps : workflow.steps ≠ [] := List.ne_nil_of_length_pos (by omega)
  rcases underway.row with ⟨-, silent⟩ | ⟨row, stored, uncompleted, unnamed | standing⟩
  · exact absurd published (by simp [silent])
  · rw [handle, subscribe_stored (underway.messages message published) named steps stored,
      exec_continueFrom_unnamed unnamed]
    refine ⟨?_, ?_, .inr ⟨row, stored, uncompleted, .inl unnamed⟩⟩
    · simpa [settled, resumed] using underway.undeleted
    · simpa [settled, resumed, Call.publication] using underway.messages
  · rw [handle, subscribe_stored (underway.messages message published) named steps stored]
    have kept : (resumed session workflowId).table workflowId = some row := stored
    refine stops.continues fruitful kept uncompleted standing ?_ ?_ session
    · simpa [resumed] using underway.undeleted
    · simpa [resumed, Call.publication] using underway.messages

/-- Where a step stops the way, an execution stays underway however its messages are delivered. -/
theorem Stops.deliveryRun_underway (stops : workflow.Stops index stop)
    (started : workflow.Started session payload) (deliveries : List Nat) {final : Broker}
    (run : workflow.deliveryRun session payload deliveries = some final) :
    workflow.Underway index (workflow.freshId session) final.session := by
  induction deliveries using List.reverseRecOn generalizing final with
  | nil =>
      rw [deliveryRun_nil started.anonymous] at run
      obtain rfl := Option.some.inj run
      exact stops.starts started
  | append_singleton deliveries position induction =>
      rw [deliveryRun_append] at run
      obtain ⟨broker, run, step⟩ := Option.bind_eq_some_iff.mp run
      obtain ⟨message, found, handled, -⟩ := delivery_deliver step
      rw [handled]
      exact stops.delivers started.fruitful (workflow.freshId_ne_empty session) (induction run)
        (List.mem_of_getElem? found)

/-! ## Runs that end -/

theorem Started.fresh (started : workflow.Started session payload) (nonempty : workflow.steps ≠ [])
    (distinct : workflow.DistinctNames) : workflow.Fresh session payload where
  succeeds :=
    { distinct
      resolves := by
        intro step member tick body
        obtain ⟨fields, resolved, -, absent⟩ := started.fruitful.resolves step member tick body
        exact ⟨_, resolved, absent⟩
      ready := started.fruitful.ready
      sent := started.fruitful.sent }
  nonempty := nonempty
  empty := started.empty
  anonymous := started.anonymous
  unused := started.unused

/-- Steps with names that resolve to objects are never refused. -/
theorem Fruitful.passes (fruitful : workflow.Fruitful)
    (named : ∀ step ∈ workflow.steps, step.name ≠ "") (tick : Nat) :
    workflow.Passes workflowId tick payload index := by
  refine ⟨fun step found => named step (List.mem_of_getElem? found),
    fun earlier earlierStep found before => ?_⟩
  obtain ⟨fields, resolved, -⟩ := fruitful.resolves _ (List.mem_of_getElem? found)
    (tick + 3 * earlier) (workflow.payloadAt workflowId tick payload earlier)
  rw [resultAt, found, Option.bind_some, Step.resolved, resolved]
  exact .inl rfl

/-- Running the last step of a workflow that does not keep its executions deletes the row. -/
theorem AtStep.deletes {tick : Nat} {step : Step} {row : WorkflowState}
    (succeeds : workflow.Succeeds) (at_index : workflow.steps[index]? = some step)
    (last : workflow.steps[index + 1]? = none)
    (standing : workflow.AtStep workflowId tick payload index step row session)
    (passes : workflow.Passes workflowId tick payload index)
    (deletes : workflow.options.deleteOnComplete = true) (opened : Session) :
    .deleteWorkflow workflowId ∈ (settled opened (exec (workflow.continueFrom workflowId
      (workflow.payloadAt workflowId tick payload index) row) session)).log := by
  have kept : (ran session ⟨workflowId, workflow.payloadAt workflowId tick payload index, step,
      row⟩ (workflow.resultAt workflowId tick payload index)).table workflowId =
        some (ranRow row (workflow.resultAt workflowId tick payload index)) := by
    simp [ran]
  rw [exec_continueFrom_runs succeeds standing (standing.runnable succeeds at_index passes),
    exec_publishNextStep_last (succeeds.distinct.firstNamed at_index) last kept]
  simp [settled, finished, deletes]

/-- The run in which every message was delivered has deleted the row. -/
theorem deliveryRun_deletes (fresh : workflow.Fresh session payload)
    (passes : ∀ index < workflow.steps.length,
      workflow.Passes (workflow.freshId session) (session.tick + 1) payload index)
    (deletes : workflow.options.deleteOnComplete = true) {final : Broker}
    (run : workflow.deliveryRun session payload (List.range (workflow.steps.length - 1)) =
      some final) : .deleteWorkflow (workflow.freshId session) ∈ final.session.log := by
  have positive := List.length_pos_iff.mpr fresh.nonempty
  rcases length : workflow.steps.length - 1 with _ | count
  · have first : workflow.steps[0]? = some workflow.steps[0] := List.getElem?_eq_getElem positive
    have last : workflow.steps[0 + 1]? = none := List.getElem?_eq_none_iff.mpr (by omega)
    rw [length, List.range_zero, deliveryRun_nil fresh.anonymous] at run
    obtain rfl := Option.some.inj run
    rw [handle, subscribe_begun fresh.anonymous first fresh.unused]
    exact atStep_begun.deletes fresh.succeeds first last (passes 0 positive) deletes _
  · have bound : count + 1 < workflow.steps.length := by omega
    have at_index := List.getElem?_eq_getElem bound
    have last : workflow.steps[count + 1 + 1]? = none := List.getElem?_eq_none_iff.mpr (by omega)
    obtain ⟨broker, run', reached⟩ := deliveryRun_range fresh count (by omega)
      fun index le => passes index (by omega)
    have position : count < (publications broker.session.log).length := by
      rw [reached.publications_length]
      omega
    have found := List.getElem?_eq_getElem position
    rw [length, deliveryRun_range_succ run' found] at run
    obtain rfl := Option.some.inj run
    obtain ⟨row, standing⟩ := reached.resumed.standing _ at_index
    have stored : broker.session.table (workflow.freshId session) = some row := standing.found
    rw [reached.payload_eq found, handle, subscribe_stored
      (payloadAt_succ_workflowId fresh.succeeds count) (workflow.freshId_ne_empty session)
      fresh.nonempty stored]
    exact standing.deletes fresh.succeeds at_index last (passes _ bound) deletes _

/-- With at least one step and a name of its own for each, every run ends. -/
theorem Started.runEnds (started : workflow.Started session payload)
    (nonempty : workflow.steps ≠ []) (distinct : workflow.DistinctNames)
    (named : ∀ step ∈ workflow.steps, step.name ≠ "") : workflow.RunEnds session payload := by
  have fresh := started.fresh nonempty distinct
  have passes : ∀ index < workflow.steps.length,
      workflow.Passes (workflow.freshId session) (session.tick + 1) payload index :=
    fun _ _ => started.fruitful.passes named _
  obtain ⟨delivered, completes⟩ := (runsToCompletion_iff_passes fresh).mpr passes
  refine ⟨delivered, fun deliveries final run once => ?_⟩
  obtain ⟨range, short⟩ := deliveries_eq_range fresh passes deliveries once run
  obtain ⟨other, run', reached⟩ := deliveryRun_range fresh deliveries.length short
    fun index le => passes index (by omega)
  rw [← range, run] at run'
  obtain rfl := Option.some.inj run'
  refine ⟨?_, fun all => ?_⟩
  · rw [reached.executions, List.length_map]
    exact List.length_take_le' _ _
  · obtain ⟨last, completed⟩ := completes deliveries final run all
    have ended := completed.ended
    split at ended
    · next deletes =>
        have count : deliveries.length = workflow.steps.length - 1 := by omega
        rw [range, count] at run
        exact .inr ⟨ended, deliveryRun_deletes fresh passes deletes run⟩
    · exact .inl ended

/-- Without steps no execution is ever begun. -/
theorem Started.not_runEnds_empty (started : workflow.Started session payload)
    (none : workflow.steps = []) : ¬ workflow.RunEnds session payload := by
  rintro ⟨-, ends⟩
  obtain ⟨-, ended⟩ := ends [] _ (deliveryRun_nil started.anonymous) List.nodup_nil
  have silent : EachOnce [] ⟨workflow.handle session payload, [workflow.freshId session], []⟩ := by
    simp [EachOnce, handle_empty none, started.empty, Call.publication]
  rcases ended silent with ⟨row, found, -⟩ | ⟨-, deleted⟩
  · rw [handle_empty none] at found
    cases started.unused.symm.trans found
  · simp [handle_empty none, started.empty] at deleted

/-- Where a name is repeated or missing, no run ends. -/
theorem Started.not_runEnds_stopped (started : workflow.Started session payload)
    (stopped : ¬ (workflow.DistinctNames ∧ ∀ step ∈ workflow.steps, step.name ≠ "")) :
    ¬ workflow.RunEnds session payload := by
  rintro ⟨⟨deliveries, final, run, once⟩, ended⟩
  obtain ⟨index, stop, stops⟩ := exists_stops stopped
  have underway := stops.deliveryRun_underway started deliveries run
  exact underway.not_completedOrDeleted ((ended deliveries final run once.1).2 once)

/-- Where steps resolve to objects, every run ends exactly if there is a step and each has a name
of its own. -/
theorem runEnds_iff (started : workflow.Started session payload) :
    workflow.RunEnds session payload ↔
      workflow.steps ≠ [] ∧ workflow.DistinctNames ∧ ∀ step ∈ workflow.steps, step.name ≠ "" := by
  constructor
  · intro ends
    refine ⟨fun none => started.not_runEnds_empty none ends, ?_⟩
    by_contra stopped
    exact started.not_runEnds_stopped stopped ends
  · rintro ⟨nonempty, distinct, named⟩
    exact started.runEnds nonempty distinct named

/-- A workflow of named steps that all resolve to an object. -/
def fruitfulSteps (names : List String) : Workflow :=
  accepting <| names.map fun name =>
    { name, execute := fun _ _ => .ok (some (.obj [("paid", .bool true)])) }

theorem fruitfulSteps_started (names : List String) :
    (fruitfulSteps names).Started ⟨fun _ => none, 0, []⟩ [] where
  fruitful :=
    { resolves := by
        intro step member tick body
        obtain ⟨name, -, rfl⟩ := List.mem_map.mp member
        exact ⟨_, rfl, List.cons_ne_nil _ _, rfl⟩
      ready := fun _ _ => rfl
      sent := fun _ _ _ => rfl }
  empty := rfl
  anonymous := rfl
  unused := rfl

/-- Two steps with names of their own come to an end. -/
theorem charge_notify_ends : (fruitfulSteps ["charge", "notify"]).RunEnds
    ⟨fun _ => none, 0, []⟩ [] := by
  refine (runEnds_iff (fruitfulSteps_started _)).mpr ⟨by simp [fruitfulSteps, accepting], ?_, ?_⟩
  · simp [DistinctNames, fruitfulSteps, accepting]
  · simp [fruitfulSteps, accepting]

/-- Where the third step has the name of the first one, the execution goes back to the second step
each time it comes to the third. -/
theorem charge_twice_endless :
    (fruitfulSteps ["charge", "notify", "charge"]).Started ⟨fun _ => none, 0, []⟩ [] ∧
      ¬ (fruitfulSteps ["charge", "notify", "charge"]).RunEnds ⟨fun _ => none, 0, []⟩ [] := by
  have started := fruitfulSteps_started ["charge", "notify", "charge"]
  refine ⟨started, started.not_runEnds_stopped ?_⟩
  simp [DistinctNames, fruitfulSteps, accepting]

end Workflow

end Steveo
