import Mathlib.Data.List.Dedup
import Steveo.Library.Action
import Steveo.Scheduler.Fleet

/-!
# Dispatching the enqueued jobs

A tick of a scheduler takes some due rows with one query, which returns them in groups, and calls
the task of every group with the items of the group.  The query takes the names of four lists; the
tasks are those of one of them.  This file models the result of the query and `publishMessages`,
and says when every row that is taken comes to a task.
-/

namespace Steveo.Scheduler

open Steveo.Action

namespace Dispatch

/-- A row as the query returns it. -/
structure JobItem where
  id : String
  name : String
  data : Json
  repeatInterval : Option String
  lastFinishedAt : Option Int
  lastRunAt : Option Int
  timezone : Option String
  failures : Nat
  nameSpace : Option String

/-- The rows of one priority and name. -/
structure JobSet where
  priority : Int
  name : String
  total : Nat
  items : List JobItem

/-- The item of a row.  The Prisma scheduler selects the namespace if it has one itself. -/
def itemOf (fleet : Fleet) (row : JobRow) : JobItem where
  id := row.id
  name := row.name
  data := row.data
  repeatInterval := row.repeatInterval
  lastFinishedAt := row.lastFinishedAt
  lastRunAt := row.lastRunAt
  timezone := row.timezone
  failures := row.failures
  nameSpace :=
    match fleet.package with
    | .prisma => (fleet.settings.nameSpace.filter (· ≠ "")).bind fun _ => row.nameSpace
    | .sequelize => none

/-- The rows that the enqueue query of a scheduler takes from a table. -/
structure Tick (fleet : Fleet) where
  now : Int
  table : JobTable
  /-- The priorities of the rows, on which only the order of the groups depends. -/
  priority : String → Int
  ids : List String
  distinct : ids.Nodup
  limited : ids.length ≤ fleet.settings.enqueueLimit
  enqueueable : ids.all (fun id => (table.find id).any (fleet.enqueueable now)) = true

namespace Tick

variable {fleet : Fleet} (tick : Tick fleet)

/-- The table after the query. -/
def enqueued : JobTable :=
  tick.table.write (fun row => row.id ∈ tick.ids)
    { queued := some true, lastRunAt := some tick.now }

/-- The rows that the query returns. -/
def taken : List JobRow := tick.ids.filterMap tick.enqueued.find

/-- What the rows of a group have in common. -/
def key (row : JobRow) : Int × String := (tick.priority row.id, row.name)

/-- The groups by descending priority and by name, as the database compares names. -/
def jobSets (collation : String → String → Bool) : List JobSet :=
  let keys := (tick.taken.map tick.key).dedup.mergeSort fun left right =>
    decide (right.1 < left.1) || (left.1 == right.1 && collation left.2 right.2)
  keys.map fun key =>
    let rows := tick.taken.filter fun row => tick.key row = key
    { priority := key.1, name := key.2, total := rows.length, items := rows.map (itemOf fleet) }

end Tick

/-- What is called for a row: a task of the scheduler, or an inherited property. -/
inductive Callee
  | task (name : String)
  | inherited (name : String)

/-- The names of the tasks of a scheduler. -/
def taskNames (settings : Settings) : List String := settings.tasks ++ [MAINTENANCE_JOB_NAME]

/-- The value of `this.tasks[name]`. -/
def lookUp (settings : Settings) (name : String) : Option Callee :=
  if name ∈ taskNames settings then some (.task name)
  else if name ∈ OBJECT_PROTOTYPE then some (.inherited name)
  else none

/-- The job of a context: the Prisma scheduler passes its identifier only. -/
inductive ContextJob
  | reference (id : String)
  | item (item : JobItem)

/-- The identifier of the job of a context. -/
def ContextJob.identifier : ContextJob → String
  | .reference id => id
  | .item job => job.id

/-- A call with the data and the context of a job. -/
structure Call where
  callee : Callee
  data : Json
  job : ContextJob

/-- What `publishMessages` of a scheduler changes. -/
structure Publisher where
  processing : Bool
  processingCount : Nat
  calls : List Call
  errors : List String

/-- A scheduler that has been constructed. -/
def Publisher.constructed : Publisher := ⟨false, 0, [], []⟩

section Publishing

variable (fleet : Fleet) (settles : List Call → Call → Except String Unit)

/-- The call for an item. -/
def callOf (callee : Callee) (item : JobItem) : Call where
  callee := callee
  data := item.data
  job :=
    match fleet.package with
    | .prisma => .reference item.id
    | .sequelize => .item item

/-- Call a task and wait until it settles, which may depend on the calls before. -/
def callTask (call : Call) : Action Publisher Unit := do
  let calls := (← get).calls
  modify fun publisher => { publisher with calls := publisher.calls ++ [call] }
  ofExcept (settles calls call)

/-- Log an error. -/
def logError (message : String) : Action Publisher Unit :=
  modify fun publisher => { publisher with errors := publisher.errors ++ [message] }

/-- Call a task for the items of a batch one after the other. -/
def publishItems (name : String) (callee : Callee) : List JobItem → Action Publisher Unit
  | [] => pure ()
  | item :: items => do
      match ← attempt (callTask settles (callOf fleet callee item)) with
      | .ok _ => pure ()
      | .error _ => logError s!"action {name} failed to publish message"
      publishItems name callee items

/-- Publish some batches one after the other. -/
def publishBatches : List JobSet → Action Publisher Unit
  | [] => pure ()
  | batch :: batches => do
      match lookUp fleet.settings batch.name with
      | some callee => publishItems fleet settles batch.name callee batch.items
      | none => logError s!"no action defined for the supplied task name - {batch.name}"
      publishBatches batches

/-- Publish the rows of a tick. -/
def publishMessages (rows : List JobSet) : Action Publisher Bool := do
  if rows.isEmpty then
    pure false
  else
    modify fun publisher =>
      { publisher with processing := true, processingCount := rows.length }
    publishBatches fleet settles rows
    modify fun publisher => { publisher with processing := false, processingCount := 0 }
    pure true

/-- A scheduler after some ticks. -/
def published : List (List JobSet) → Publisher
  | [] => .constructed
  | rows :: earlier => (exec (publishMessages fleet settles rows) (published earlier)).2

end Publishing

/-! ## The result of the query -/

section Groups

/-- Some lists of distinct keys that cover a list divide it into groups. -/
theorem perm_flatMap_filter {α κ : Type} [DecidableEq κ] (key : α → κ) {keys : List κ}
    (distinct : keys.Nodup) {rows : List α} (covered : ∀ row ∈ rows, key row ∈ keys) :
    List.Perm (keys.flatMap fun name => rows.filter fun row => key row = name) rows := by
  induction keys generalizing rows with
  | nil =>
      have empty : rows = [] := by
        refine List.eq_nil_iff_forall_not_mem.mpr fun row member => ?_
        cases covered row member
      rw [empty]
      exact List.Perm.nil
  | cons name keys induction =>
      obtain ⟨fresh, distinct⟩ := List.nodup_cons.mp distinct
      have others : ∀ row ∈ rows.filter fun row => !decide (key row = name), key row ∈ keys := by
        intro row member
        obtain ⟨member, different⟩ := List.mem_filter.mp member
        have different : key row ≠ name := by simpa using different
        exact (List.mem_cons.mp (covered row member)).resolve_left different
      have same : ∀ other ∈ keys, (rows.filter fun row => key row = other) =
          (rows.filter fun row => !decide (key row = name)).filter fun row => key row = other := by
        intro other member
        rw [List.filter_filter]
        refine List.filter_congr fun row _ => ?_
        by_cases equal : key row = other
        · have different : key row ≠ name := by
            rintro named
            exact fresh (named ▸ equal ▸ member)
          simp [equal, equal ▸ different]
        · simp [equal]
      rw [List.flatMap_cons]
      refine .trans (.append_left _ ?_) (List.filter_append_perm _ rows)
      rw [List.flatMap_congr same]
      exact induction distinct others

variable {fleet : Fleet} (tick : Tick fleet)

/-- The groups contain an item for each row that is taken, under its name. -/
theorem perm_jobSets (collation : String → String → Bool) {β : Type}
    (each : String → JobItem → β) :
    List.Perm
      ((tick.jobSets collation).flatMap fun batch => batch.items.map (each batch.name))
      (tick.taken.map fun row => each row.name (itemOf fleet row)) := by
  let keys := (tick.taken.map tick.key).dedup.mergeSort fun left right =>
    decide (right.1 < left.1) || (left.1 == right.1 && collation left.2 right.2)
  have sorted : List.Perm keys (tick.taken.map tick.key).dedup := List.mergeSort_perm _ _
  have distinct : keys.Nodup := sorted.nodup_iff.mpr (List.nodup_dedup _)
  have covered : ∀ row ∈ tick.taken, tick.key row ∈ keys := by
    intro row member
    exact sorted.mem_iff.mpr (List.mem_dedup.mpr (List.mem_map_of_mem member))
  have grouped : ((tick.jobSets collation).flatMap fun batch =>
        batch.items.map (each batch.name)) =
      (keys.flatMap fun key => tick.taken.filter fun row => tick.key row = key).map
        fun row => each row.name (itemOf fleet row) := by
    rw [List.map_flatMap, Tick.jobSets, List.flatMap_map]
    refine List.flatMap_congr fun key _ => ?_
    rw [List.map_map]
    refine List.map_congr_left fun row member => ?_
    obtain rfl := of_decide_eq_true (List.mem_filter.mp member).2
    rfl
  rw [grouped]
  exact (perm_flatMap_filter tick.key distinct covered).map _

end Groups

/-! ## What is called -/

section Calls

variable (fleet : Fleet) (settles : List Call → Call → Except String Unit)

/-- The calls for a batch. -/
def batchCalls (batch : JobSet) : List Call :=
  match lookUp fleet.settings batch.name with
  | some callee => batch.items.map (callOf fleet callee)
  | none => []

theorem exec_callTask (call : Call) (state : Publisher) :
    exec (callTask settles call) state =
      (settles state.calls call, { state with calls := state.calls ++ [call] }) := by
  rw [callTask, exec_bind_ok (exec_get state), exec_bind_ok (exec_modify _ state)]
  cases settles state.calls call <;> rfl

/-- Every item is passed to the task, whether the task resolves or rejects. -/
theorem exec_publishItems (name : String) (callee : Callee) (items : List JobItem)
    (state : Publisher) :
    ∃ errors, exec (publishItems fleet settles name callee items) state =
      (.ok (), { state with
        calls := state.calls ++ items.map (callOf fleet callee), errors := errors }) := by
  induction items generalizing state with
  | nil => exact ⟨state.errors, by simp [publishItems]⟩
  | cons item items induction =>
      have called := exec_callTask settles (callOf fleet callee item) state
      rw [publishItems, exec_bind_ok (exec_attempt _ _), called]
      cases settles state.calls (callOf fleet callee item) with
      | ok _ =>
          obtain ⟨errors, rest⟩ := induction
            { state with calls := state.calls ++ [callOf fleet callee item] }
          refine ⟨errors, rest.trans ?_⟩
          simp
      | error _ =>
          obtain ⟨errors, rest⟩ := induction { state with
            calls := state.calls ++ [callOf fleet callee item]
            errors := state.errors ++ [s!"action {name} failed to publish message"] }
          refine ⟨errors, rest.trans ?_⟩
          simp

/-- Every batch is dealt with. -/
theorem exec_publishBatches (batches : List JobSet) (state : Publisher) :
    ∃ errors, exec (publishBatches fleet settles batches) state =
      (.ok (), { state with
        calls := state.calls ++ batches.flatMap (batchCalls fleet), errors := errors }) := by
  induction batches generalizing state with
  | nil => exact ⟨state.errors, by simp [publishBatches]⟩
  | cons batch batches induction =>
      rw [publishBatches, List.flatMap_cons, batchCalls]
      cases lookUp fleet.settings batch.name with
      | some callee =>
          obtain ⟨logged, first⟩ :=
            exec_publishItems fleet settles batch.name callee batch.items state
          obtain ⟨errors, rest⟩ := induction { state with
            calls := state.calls ++ batch.items.map (callOf fleet callee), errors := logged }
          exact ⟨errors, by rw [exec_bind_ok first, rest, List.append_assoc]⟩
      | none =>
          obtain ⟨errors, rest⟩ := induction { state with
            errors := state.errors ++
              [s!"no action defined for the supplied task name - {batch.name}"] }
          exact ⟨errors, by rw [logError, exec_bind_ok (exec_modify _ state), rest]; rfl⟩

/-- A scheduler that is idle is idle again after it has published a batch. -/
theorem exec_publishMessages (rows : List JobSet) {state : Publisher}
    (idle : state.processing = false ∧ state.processingCount = 0) :
    ∃ returned errors, exec (publishMessages fleet settles rows) state =
      (.ok returned, ⟨false, 0, state.calls ++ rows.flatMap (batchCalls fleet), errors⟩) := by
  obtain ⟨processing, processingCount, calls, errors⟩ := state
  obtain ⟨rfl, rfl⟩ := idle
  cases rows with
  | nil => exact ⟨false, errors, by simp [publishMessages]⟩
  | cons batch batches =>
      obtain ⟨errors, published⟩ := exec_publishBatches fleet settles (batch :: batches)
        ⟨true, (batch :: batches).length, calls, errors⟩
      refine ⟨true, errors, ?_⟩
      rw [publishMessages, if_neg (by simp), exec_bind_ok (exec_modify _ _),
        exec_bind_ok published]
      rfl

/-- A scheduler is idle between its ticks. -/
theorem published_idle (earlier : List (List JobSet)) :
    (published fleet settles earlier).processing = false ∧
      (published fleet settles earlier).processingCount = 0 := by
  induction earlier with
  | nil => exact ⟨rfl, rfl⟩
  | cons rows earlier induction =>
      obtain ⟨returned, errors, published⟩ := exec_publishMessages fleet settles rows induction
      rw [Dispatch.published, published]
      exact ⟨rfl, rfl⟩

end Calls

/-- Among some calls exactly one is about a row, and it passes the data and the context of the row
to the task of its name. -/
def PassedOnce (fleet : Fleet) (calls : List Call) (row : JobRow) : Prop :=
  ∃ before after,
    calls = before ++ callOf fleet (.task row.name) (itemOf fleet row) :: after ∧
      ∀ other ∈ before ++ after, other.job.identifier ≠ row.id

/-- When the rows of a tick have been published, each of them has been passed to its task exactly
once, and the scheduler is idle. -/
def Dispatches (fleet : Fleet) (settles : List Call → Call → Except String Unit)
    (collation : String → String → Bool) (scheduler : Publisher) (tick : Tick fleet) : Prop :=
  ∃ returned final calls,
    exec (publishMessages fleet settles (tick.jobSets collation)) scheduler =
        (.ok returned, final) ∧
      final.calls = scheduler.calls ++ calls ∧ (∀ row ∈ tick.taken, PassedOnce fleet calls row) ∧
        final.processing = false ∧ final.processingCount = 0

section Rows

variable {fleet : Fleet} (tick : Tick fleet)

/-- The query finds the rows that it takes. -/
theorem ids_taken : (tick.taken.map fun row => row.id) = tick.ids := by
  have found : ∀ id ∈ tick.ids, ((tick.enqueued.find id).map fun row => row.id) = some id := by
    intro id member
    obtain ⟨row, located, -⟩ := (Option.any_eq_true _ _).mp
      (List.all_eq_true.mp tick.enqueueable id member)
    rw [Tick.enqueued, JobTable.find_write, located]
    simpa [apply_ite] using (JobTable.mem_of_find located).2
  rw [Tick.taken, List.map_filterMap, List.filterMap_congr found, List.filterMap_some]

/-- The call for a row, if there is something to call. -/
def rowCall (fleet : Fleet) (row : JobRow) : Option Call :=
  (lookUp fleet.settings row.name).map fun callee => callOf fleet callee (itemOf fleet row)

/-- The calls of a tick are those for its rows. -/
theorem perm_calls (collation : String → String → Bool) :
    List.Perm ((tick.jobSets collation).flatMap (batchCalls fleet))
      (tick.taken.filterMap (rowCall fleet)) := by
  have batch : ∀ batch : JobSet, batchCalls fleet batch =
      (batch.items.map fun item =>
        (lookUp fleet.settings batch.name).map fun callee => callOf fleet callee item).filterMap
          id := by
    intro batch
    rw [batchCalls]
    cases lookUp fleet.settings batch.name with
    | none => simp
    | some callee => simp [List.filterMap_map]
  have groups := (perm_jobSets tick collation fun name item =>
    (lookUp fleet.settings name).map fun callee => callOf fleet callee item).filterMap id
  rw [List.filterMap_flatMap, List.filterMap_map] at groups
  rw [List.flatMap_congr fun set _ => batch set]
  exact groups

@[simp] theorem identifier_callOf (callee : Callee) (item : JobItem) :
    (callOf fleet callee item).job.identifier = item.id := by
  rw [callOf]
  cases fleet.package <;> rfl

theorem lookUp_eq_task_iff {settings : Settings} {name other : String} :
    lookUp settings name = some (.task other) ↔ name ∈ taskNames settings ∧ name = other := by
  rw [lookUp]
  split
  · rename_i member
    simp [member]
  · rename_i absent
    split <;> simp [absent]

/-- A row that is dispatched has a task. -/
theorem known_of_dispatches {settles : List Call → Call → Except String Unit}
    {collation : String → String → Bool} {earlier : List (List JobSet)}
    (dispatches : Dispatches fleet settles collation (published fleet settles earlier) tick)
    {row : JobRow} (member : row ∈ tick.taken) : row.name ∈ taskNames fleet.settings := by
  obtain ⟨_, final, calls, execution, made, passed, -⟩ := dispatches
  obtain ⟨returned, errors, executed⟩ := exec_publishMessages fleet settles
    (tick.jobSets collation) (published_idle fleet settles earlier)
  obtain ⟨-, rfl⟩ := Prod.mk.inj (executed.symm.trans execution)
  obtain rfl := List.append_cancel_left made
  obtain ⟨before, after, split, -⟩ := passed row member
  have listed : callOf fleet (.task row.name) (itemOf fleet row) ∈
      (tick.jobSets collation).flatMap (batchCalls fleet) := by
    rw [split]
    exact List.mem_append_right _ List.mem_cons_self
  obtain ⟨other, -, called⟩ := List.mem_filterMap.mp
    ((perm_calls tick collation).mem_iff.mp listed)
  obtain ⟨callee, found, equal⟩ := Option.map_eq_some_iff.mp called
  obtain rfl : callee = .task row.name := congrArg Call.callee equal
  obtain ⟨known, named⟩ := lookUp_eq_task_iff.mp found
  exact named ▸ known

/-- A tick dispatches its rows exactly if each of them has a task, whatever has been published
before and whichever tasks reject. -/
theorem dispatches_iff (settles : List Call → Call → Except String Unit)
    (collation : String → String → Bool) (earlier : List (List JobSet)) :
    Dispatches fleet settles collation (published fleet settles earlier) tick ↔
      ∀ row ∈ tick.taken, row.name ∈ taskNames fleet.settings := by
  obtain ⟨returned, errors, executed⟩ := exec_publishMessages fleet settles
    (tick.jobSets collation) (published_idle fleet settles earlier)
  have same := perm_calls tick collation
  constructor
  · exact fun dispatches row member => known_of_dispatches tick dispatches member
  · intro known
    have calls : tick.taken.filterMap (rowCall fleet) =
        tick.taken.map fun row => callOf fleet (.task row.name) (itemOf fleet row) := by
      rw [← List.filterMap_eq_map]
      refine List.filterMap_congr fun row member => ?_
      rw [rowCall, lookUp_eq_task_iff.mpr ⟨known row member, rfl⟩]
      rfl
    rw [calls] at same
    have identifiers : List.Perm
        (((tick.jobSets collation).flatMap (batchCalls fleet)).map fun call =>
          call.job.identifier) tick.ids := by
      refine (same.map _).trans (List.Perm.of_eq ?_)
      rw [List.map_map, ← ids_taken tick]
      exact List.map_congr_left fun row _ => identifier_callOf _ _
    have distinct := identifiers.nodup_iff.mpr tick.distinct
    refine ⟨returned, _, _, executed, rfl, fun row member => ?_, rfl, rfl⟩
    obtain ⟨before, after, split⟩ := List.append_of_mem
      (same.mem_iff.mpr (List.mem_map_of_mem member))
    refine ⟨before, after, split, fun other listed equal => ?_⟩
    rw [split, List.map_append, List.map_cons, identifier_callOf, List.nodup_middle,
      List.nodup_cons, ← List.map_append] at distinct
    exact distinct.1 (List.mem_map.mpr ⟨other, listed, equal⟩)

/-- The ticks are those of a fleet. -/
theorem tick_of_enqueue {before after : Fleet.State} {process : Nat} {ids : List String}
    (priority : String → Int)
    (stepped : fleet.step before (.enqueue process ids) = some after) :
    ∃ tick : Tick fleet, tick.now = before.now ∧ tick.table = before.table ∧ tick.ids = ids ∧
      tick.priority = priority ∧ tick.enqueued = after.table := by
  rw [Fleet.step, Option.ite_none_right_eq_some] at stepped
  obtain ⟨⟨-, distinct, limited, enqueueable⟩, taken⟩ := stepped
  obtain rfl := Option.some.inj taken
  exact ⟨⟨before.now, before.table, priority, ids, distinct, limited, enqueueable⟩,
    rfl, rfl, rfl, rfl, rfl⟩

end Rows

/-- A fleet that may restart a job for which it has no task. -/
def mailFleet (package : Package) : Fleet where
  library := hourlyRules
  moment := universalTime
  package := package
  settings :=
    { jobsSafeToRestart := ["mail"], jobsRiskyToRestart := [], jobsCustomRestart := [], tasks := []
      wrapped := [] }

/-- The job without a task. -/
def mail : JobRow :=
  { Fleet.createdJob 0 "1" with name := "mail" }

/-- A tick that takes the job without a task. -/
def mailTick (package : Package) : Tick (mailFleet package) where
  now := 1
  table := JobTable.empty.insert mail
  priority _ := 1
  ids := ["1"]
  distinct := List.nodup_singleton _
  limited := Nat.le_refl 1
  enqueueable := by cases package <;> decide

/-- In either package a row that is taken because its job may be restarted is set to queued and
passed to no task if the scheduler has none of its name. -/
theorem mail_not_dispatched : [Package.prisma, .sequelize].Forall fun package =>
    ¬ Dispatches (mailFleet package) (fun _ _ => .ok ()) (fun _ _ => true) .constructed
      (mailTick package) := by
  refine List.forall_iff_forall_mem.mpr fun package _ dispatches => ?_
  have names : ((mailTick package).taken.map fun row => row.name) = ["mail"] := by
    cases package <;> rfl
  have taken : "mail" ∈ (mailTick package).taken.map fun row => row.name := by
    rw [names]
    exact List.mem_singleton_self _
  obtain ⟨row, member, named⟩ := List.mem_map.mp taken
  have start : Dispatches (mailFleet package) (fun _ _ => .ok ()) (fun _ _ => true)
      (published (mailFleet package) (fun _ _ => .ok ()) []) (mailTick package) := dispatches
  have known := known_of_dispatches (mailTick package) start member
  rw [named] at known
  exact absurd known (by cases package <;> decide)

end Dispatch

end Steveo.Scheduler
