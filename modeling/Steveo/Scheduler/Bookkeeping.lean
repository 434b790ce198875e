import Mathlib.Data.Fintype.Defs
import Mathlib.Data.List.Induction
import Steveo.Scheduler.TimestampHelper

/-!
# Failures that are counted side by side

The Prisma scheduler counts a failure in a read and up to two writes, of which the first one
already releases the row.  This file models the processes that enqueue a job, run it and put its
row back, statement by statement, and says when they come to what some order of whole calls comes
to.  A statement reads the clock when it is carried out.
-/

namespace Steveo.Scheduler

namespace Bookkeeping

open Function

/-- How far a process has come with the job. -/
inductive Stage
  | idle
  | lookingUp
  | starting
  | executing
  | finishing
  | deleting (readAt : Int)
  | storing (readAt : Int) (nextRunAt : Option Int)
  | failing
  | requeueing (found : JobRow)
  /-- The row is counted, after it has been released with a next run or without that. -/
  | counting (found : JobRow) (released : Option Int)
  | settled

/-- The calls that change the row, with what they read from the clock. -/
inductive Call
  | enqueue (now : Int)
  | updateStartTask (now : Int)
  | updateFinishTask (readAt now : Int) (success : Bool)
  | updateFailure (nextRunAt now : Int)
  deriving DecidableEq

/-- How a run ends, if a call completes it. -/
def Call.result : Call → Option Bool
  | .updateFinishTask _ _ true => some true
  | .updateFailure _ _ => some false
  | _ => none

/-- What a statement leads to. -/
structure Outcome where
  row : Option JobRow
  stage : Stage
  /-- The call that the statement completes. -/
  call : Option Call := none

variable (fleet : Fleet)

/-- Enqueueing a row. -/
def enqueued (now : Int) : RowUpdate where
  queued := some true
  lastRunAt := some now

/-- Starting a job. -/
def accepted (now : Int) : RowUpdate where
  acceptedAt := some now

/-- The statement that a process carries out on the row of the job. -/
def statement (now : Int) (delay : Nat) (row : Option JobRow) : Stage → Option Outcome
  | .idle =>
      match row with
      | none => none
      | some job =>
          if fleet.enqueueable now job then
            some ⟨some ((enqueued now).apply job), .lookingUp, some (.enqueue now)⟩
          else
            none
  | .lookingUp =>
      match row with
      | none => some ⟨none, .settled, none⟩
      | some job => some ⟨some job, .starting, none⟩
  | .starting =>
      match row with
      | none => some ⟨none, .settled, none⟩
      | some job =>
          some ⟨some ((accepted now).apply job), .executing, some (.updateStartTask now)⟩
  | .finishing =>
      match row with
      | none => some ⟨none, .settled, some (.updateFinishTask now now true)⟩
      | some job =>
          if job.oneOff then
            some ⟨some job, .deleting now, none⟩
          else
            match computeNextRun fleet.library fleet.moment now job.repeatInterval job.timezone with
            | .ok nextRunAt => some ⟨some job, .storing now nextRunAt, none⟩
            | .error _ => some ⟨some job, .failing, some (.updateFinishTask now now false)⟩
  -- The computation of the next run of a deleted job throws.
  | .deleting readAt => some ⟨none, .failing, some (.updateFinishTask readAt now false)⟩
  | .storing readAt nextRunAt =>
      match row with
      | none => some ⟨none, .failing, some (.updateFinishTask readAt now false)⟩
      | some job =>
          some ⟨some ((Fleet.finished now nextRunAt).apply job), .settled,
            some (.updateFinishTask readAt now true)⟩
  | .failing =>
      match row with
      | none => some ⟨none, .settled, some (.updateFailure now now)⟩
      | some job =>
          if fleet.retries job then
            if (TimestampHelper.filled job.timezone).isSome then
              some ⟨some job, .requeueing job, none⟩
            else
              some ⟨some job, .settled, some (.updateFailure now now)⟩
          else
            some ⟨some job, .counting job none, none⟩
  | .requeueing found =>
      match row with
      | none => some ⟨none, .settled, some (.updateFailure (now + delay) now)⟩
      | some job =>
          some ⟨some ((Fleet.retried now delay found).apply job),
            .counting found (some (now + delay)), none⟩
  | .counting found released =>
      some ⟨row.map (Fleet.failed now found).apply, .settled,
        some (.updateFailure (released.getD now) now)⟩
  | .executing | .settled => none

/-- The row, the processes, and the calls that have been completed. -/
structure State (ι : Type) where
  row : Option JobRow
  stage : ι → Stage
  calls : List (ι × Call)

variable {ι : Type} [DecidableEq ι]

/-- What can happen. -/
inductive Event (ι : Type)
  /-- A process carries out its statement. -/
  | act (process : ι) (now : Int) (delay : Nat)
  /-- The task of a process ends. -/
  | complete (process : ι) (succeeded : Bool)

/-- A process goes on with what its statement has led to. -/
def State.proceed (state : State ι) (process : ι) (outcome : Outcome) : State ι where
  row := outcome.row
  stage := update state.stage process outcome.stage
  calls := state.calls ++ outcome.call.toList.map (Prod.mk process)

/-- The next state, if the event can happen. -/
def step (state : State ι) : Event ι → Option (State ι)
  | .act process now delay =>
      (statement fleet now delay state.row (state.stage process)).map (state.proceed process)
  | .complete process succeeded =>
      match state.stage process with
      | .executing =>
          some (state.proceed process
            ⟨state.row, if succeeded then .finishing else .failing, none⟩)
      | _ => none

/-- Processes that work on the row of a job. -/
def system (ι : Type) [DecidableEq ι] : System (State ι) (Event ι) := ⟨step fleet⟩

/-- A row before anything has been carried out. -/
def State.initial (row : Option JobRow) (stage : ι → Stage) : State ι := ⟨row, stage, []⟩

/-! ## Whole calls -/

/-- The row after the failure of its job has been counted in a single update. -/
def counted (nextRunAt now : Int) (job : JobRow) : JobRow :=
  if fleet.retries job then
    if (TimestampHelper.filled job.timezone).isSome then
      ({ Fleet.failed now job with queued := some false, nextRunAt := some nextRunAt } :
        RowUpdate).apply job
    else
      job
  else
    (Fleet.failed now job).apply job

/-- The row after its job has been put back, and whether that succeeds. -/
def putBack (readAt now : Int) (job : JobRow) : Option JobRow × Bool :=
  if job.oneOff then
    (none, false)
  else
    match computeNextRun fleet.library fleet.moment readAt job.repeatInterval job.timezone with
    | .ok nextRunAt => (some ((Fleet.finished now nextRunAt).apply job), true)
    | .error _ => (some job, false)

/-- The row after a call that nothing interrupts, if the call is possible.  A call that has
succeeded has to succeed again. -/
def Call.apply (row : Option JobRow) : Call → Option (Option JobRow)
  | .enqueue now =>
      match row with
      | none => none
      | some job =>
          if fleet.enqueueable now job then some (some ((enqueued now).apply job)) else none
  | .updateStartTask now => some (row.map (accepted now).apply)
  | .updateFinishTask readAt now success =>
      match row with
      | none => some none
      | some job =>
          if success = true → (putBack fleet readAt now job).2 = true then
            some (putBack fleet readAt now job).1
          else
            none
  | .updateFailure nextRunAt now => some (row.map (counted fleet nextRunAt now))

/-- The row after some calls, one after the other. -/
def execute : List (ι × Call) → Option JobRow → Option (Option JobRow)
  | [], row => some row
  | call :: calls, row => (call.2.apply fleet row).bind (execute calls)

/-- Two lists have the same calls of every process in the same order. -/
def Agree (order calls : List (ι × Call)) : Prop :=
  ∀ process, order.filter (·.1 = process) = calls.filter (·.1 = process)

/-- How the run ended that was completed last. -/
def lastResult (order : List (ι × Call)) : Option Bool :=
  (order.filterMap (·.2.result)).getLast?

/-- The bookkeeping is that of whole calls: in some order they lead to the row, and a job whose
last completed run has succeeded has no failures. -/
def Atomic (row : Option JobRow) (state : State ι) : Prop :=
  ∃ order, Agree order state.calls ∧ execute fleet order row = some state.row ∧
    (lastResult order = some true → ∀ job ∈ state.row, job.failures = 0 ∧ job.failedAt = none)

/-- Whether a process has read nothing of the row that it is going to write. -/
def Stage.Fresh : Stage → Prop
  | .deleting _ | .storing _ _ | .requeueing _ | .counting _ _ => False
  | _ => True

/-- Whether a process has released the row and has still to count it. -/
def Stage.Open : Stage → Prop
  | .counting _ (some _) => True
  | _ => False

/-- What a process needs to write: a failure is first written on the row that has been read, and
neither a failure nor a success is written while the row is not free. -/
def Stage.Permits (row : Option JobRow) (free : Prop) : Stage → Prop
  | .requeueing found | .counting found none =>
      (∀ job ∈ row, job.failures = found.failures) ∧ free
  | .storing _ _ => free
  | _ => True

/-- Nothing is written on a row that has changed since it was read, nor while another process has
released the row and has still to count it. -/
def Exclusive (state : State ι) : Event ι → Prop
  | .act process _ _ => (state.stage process).Permits state.row
      (∀ other, other ≠ process → ¬ (state.stage other).Open)
  | .complete _ _ => True

instance : DecidablePred Stage.Open
  | .counting _ (some _) => isTrue trivial
  | .counting _ none | .idle | .lookingUp | .starting | .executing | .finishing | .deleting _
  | .storing _ _ | .failing | .requeueing _ | .settled => isFalse id

instance (row : Option JobRow) (free : Prop) [Decidable free] :
    DecidablePred (Stage.Permits row free)
  | .requeueing found | .counting found none =>
      inferInstanceAs (Decidable ((∀ job ∈ row, job.failures = found.failures) ∧ free))
  | .storing _ _ => inferInstanceAs (Decidable free)
  | .counting _ (some _) | .idle | .lookingUp | .starting | .executing | .finishing | .deleting _
  | .failing | .settled => isTrue trivial

instance [Fintype ι] (state : State ι) : DecidablePred (Exclusive state)
  | .act process _ _ => inferInstanceAs (Decidable ((state.stage process).Permits state.row _))
  | .complete _ _ => isTrue trivial

/-! ## The functions of the packages -/

section Packages

open Steveo.Action TimestampHelper

variable {fleet} {delay : Nat} {id : String} {job : JobRow}

/-- Assigning a column its old value does not change the row. -/
theorem assigned_getD {α : Type} [DecidableEq α] (old : α) (new : Option α) :
    (Fleet.assigned (some old) new none).getD old = new.getD old := by
  rw [Fleet.assigned]
  split
  · rename_i unchanged
    rcases unchanged with rfl | rfl <;> rfl
  · rfl

theorem assigned_or {α : Type} [DecidableEq α] (old new : Option α) :
    (Fleet.assigned old new none).or old = new.or old := by
  rw [Fleet.assigned]
  split
  · rename_i unchanged
    rcases unchanged with rfl | rfl
    · rfl
    · rw [Option.none_or, Option.or_self]
  · rfl

/-- Saving the columns of a row that change is as good as saving all that were assigned. -/
theorem columns_apply (change : RowUpdate) (job : JobRow) :
    (fleet.columns { values := job } change).apply job = change.apply job := by
  rw [Fleet.columns]
  cases fleet.package with
  | prisma => rfl
  | sequelize => simp only [Fleet.JobInstance.assign, RowUpdate.apply, assigned_getD, assigned_or]

theorem lookUp_write_selected {table : JobTable} {condition : JobRow → Bool} {update : RowUpdate}
    (present : fleet.lookUp table id = some job) (selected : condition job = true) :
    fleet.lookUp (table.write condition update) id = some (update.apply job) := by
  obtain ⟨found, addressed⟩ := Option.filter_eq_some_iff.mp present
  have kept : fleet.addresses id (update.apply job) = fleet.addresses id job := rfl
  rw [Fleet.lookUp, JobTable.find_write, found, Option.map_some, if_pos selected,
    Option.filter_some, kept, if_pos addressed]

/-- The single update of the Sequelize scheduler is a whole call. -/
theorem sequelize_updateFailure (session : HelperSession)
    (present : fleet.lookUp session.table job.id = some job) :
    fleet.lookUp (exec (TimestampHelper.Sequelize.updateFailure fleet delay job) session).2.table
      job.id = some (counted fleet (session.now + delay) session.now job) := by
  have saved (change : RowUpdate) : fleet.lookUp (session.table.write (fleet.addresses job.id)
      (fleet.columns { values := job } change)) job.id = some (change.apply job) :=
    (Fleet.lookUp_write present).trans (congrArg some (columns_apply change job))
  rw [TimestampHelper.Sequelize.updateFailure, exec_bind_ok (exec_record _ _),
    counted]
  cases fleet.retries job with
  | false => exact saved _
  | true =>
      rw [if_pos rfl, if_pos rfl, requireZone]
      cases (filled job.timezone).isSome with
      | false => exact present
      | true => exact saved _

/-- The updates of the Prisma scheduler are a whole call if nothing comes between them. -/
theorem prisma_updateFailure (nonempty : id ≠ "") (session : HelperSession) :
    fleet.lookUp (exec (TimestampHelper.Prisma.updateFailure fleet delay id) session).2.table id =
      (fleet.lookUp session.table id).map (counted fleet (session.now + delay) session.now) := by
  have asked : (id != "") = true := by simpa using nonempty
  rw [TimestampHelper.Prisma.updateFailure, exec_bind_ok (exec_record _ _), asked,
    runIf, if_pos rfl, exec_bind_ok (exec_findJob id _)]
  cases found : fleet.lookUp session.table id with
  | none => exact found
  | some job =>
      dsimp only
      rw [Option.map_some, counted]
      obtain ⟨member, addressed, identified⟩ := mem_of_lookUp found
      have same : job.key = jobKey id job.nameSpace := by rw [Job.key, identified]
      cases fleet.retries job with
      | false =>
          rw [exec_bind_ok (exec_runIf_false _ _), exec_bind_ok (exec_get _),
            TimestampHelper.Prisma.exec_update (by exact member) (decide_eq_true same)]
          exact lookUp_write_selected found (decide_eq_true same)
      | true =>
          rw [if_pos rfl]
          cases zone : (filled job.timezone).isSome with
          | false =>
              rw [exec_bind_error (TimestampHelper.Prisma.exec_retry_refused zone)]
              exact found
          | true =>
              have located : fleet.lookUp { session with
                  calls := session.calls ++ [HelperCall.updateFailure id] }.table id =
                    some job := found
              have again : fleet.lookUp (session.table.write (fleet.addresses id)
                  (Fleet.retried session.now delay job)) id =
                    some ((Fleet.retried session.now delay job).apply job) :=
                Fleet.lookUp_write found
              have kept : ((Fleet.retried session.now delay job).apply job).key =
                  jobKey id job.nameSpace := same
              rw [exec_bind_ok (TimestampHelper.Prisma.exec_retry located zone),
                exec_bind_ok (exec_get _), TimestampHelper.Prisma.exec_update
                  (by exact (mem_of_lookUp again).1) (decide_eq_true kept)]
              exact lookUp_write_selected again (decide_eq_true kept)

/-- The statements that put a row back are a whole call if nothing comes between them. -/
theorem prisma_updateFinishTask (nonempty : id ≠ "") (session : HelperSession) :
    fleet.lookUp (exec (TimestampHelper.Prisma.updateFinishTask fleet id) session).2.table id =
      (fleet.lookUp session.table id).bind fun job =>
        (putBack fleet session.now session.now job).1 := by
  have asked : (id != "") = true := by simpa using nonempty
  rw [TimestampHelper.Prisma.updateFinishTask, asked, runIf, if_pos rfl,
    exec_bind_ok (exec_findJob id session)]
  cases found : fleet.lookUp session.table id with
  | none => exact found
  | some job =>
      dsimp only
      obtain ⟨member, addressed, -⟩ := mem_of_lookUp found
      rw [Option.bind_some, putBack]
      cases once : job.oneOff with
      | true =>
          obtain ⟨message, stops⟩ := TimestampHelper.Prisma.exec_discard once session
          rw [once] at stops
          rw [if_pos rfl, stops]
          exact Fleet.lookUp_delete _ _
      | false =>
          rw [exec_bind_ok (exec_runIf_false _ _), if_neg Bool.false_ne_true]
          have next : exec (nextRun fleet job) session = _ := exec_nextRun job session
          cases planned : computeNextRun fleet.library fleet.moment session.now job.repeatInterval
            job.timezone with
          | ok nextRunAt =>
              rw [planned] at next
              rw [exec_bind_ok next, exec_bind_ok (exec_get session),
                TimestampHelper.Prisma.exec_update member addressed]
              exact Fleet.lookUp_write found
          | error message =>
              rw [planned] at next
              rw [exec_bind_error next]
              exact found

/-- The statements that count a failure come to the whole call if nothing comes between them. -/
theorem run_failing (row : Option JobRow) (now : Int) (delay : Nat) : ∃ count,
    ((system fleet Unit).run (List.replicate count (.act () now delay))
      (State.initial row fun _ => .failing)).map (fun final => (final.row, final.stage ())) =
        some (row.map (counted fleet (now + delay) now), .settled) := by
  rcases row with _ | job
  · exact ⟨1, rfl⟩
  cases retried : fleet.retries job with
  | false =>
      refine ⟨2, ?_⟩
      simp [system, step, statement, State.initial, State.proceed, counted, retried]
  | true =>
      cases zone : (filled job.timezone).isSome with
      | false =>
          refine ⟨1, ?_⟩
          simp [system, step, statement, State.initial, State.proceed, counted, retried, zone]
      | true =>
          refine ⟨3, ?_⟩
          simp [system, step, statement, State.initial, State.proceed, counted, retried, zone]
          rfl

/-- The statements that put the row back come to the whole call too; where it throws, the failure
is counted. -/
theorem run_finishing (row : Option JobRow) (now : Int) (delay : Nat) : ∃ count,
    ((system fleet Unit).run (List.replicate count (.act () now delay))
      (State.initial row fun _ => .finishing)).map (fun final => (final.row, final.stage ())) =
        some (row.bind fun job => (putBack fleet now now job).1,
          if row.all fun job => (putBack fleet now now job).2 then .settled else .failing) := by
  rcases row with _ | job
  · exact ⟨1, rfl⟩
  cases once : job.oneOff with
  | true =>
      refine ⟨2, ?_⟩
      simp [system, step, statement, State.initial, State.proceed, putBack, once]
  | false =>
      cases planned : computeNextRun fleet.library fleet.moment now job.repeatInterval
        job.timezone with
      | ok nextRunAt =>
          refine ⟨2, ?_⟩
          simp [system, step, statement, State.initial, State.proceed, putBack, once, planned]
      | error message =>
          refine ⟨1, ?_⟩
          simp [system, step, statement, State.initial, State.proceed, putBack, once, planned]

end Packages

/-! ## Views of the row -/

/-- Two versions of a row have the same columns that no statement assigns. -/
structure Same (job other : JobRow) : Prop where
  name : other.name = job.name
  repeatInterval : other.repeatInterval = job.repeatInterval
  timezone : other.timezone = job.timezone

theorem Same.refl (job : JobRow) : Same job job := ⟨rfl, rfl, rfl⟩

theorem Same.trans {first second third : JobRow} (one : Same first second)
    (other : Same second third) : Same first third :=
  ⟨other.name.trans one.name, other.repeatInterval.trans one.repeatInterval,
    other.timezone.trans one.timezone⟩

theorem same_apply (update : RowUpdate) (job : JobRow) : Same job (update.apply job) :=
  ⟨rfl, rfl, rfl⟩

/-- A row with the time that a pending count will write, if there is one. -/
def seen (now : Option Int) (job : JobRow) : JobRow :=
  { job with failedAt := now.elim job.failedAt some }

section Views

variable {fleet} {job other : JobRow}

theorem Same.oneOff (same : Same job other) : other.oneOff = job.oneOff := by
  rw [Job.oneOff, Job.oneOff, same.repeatInterval]

/-- Two versions of a row with the same failures are tried again alike. -/
theorem Same.retries {original : JobRow} (one : Same original job) (two : Same original other)
    (failures : other.failures = job.failures) : fleet.retries other = fleet.retries job := by
  rw [Fleet.retries, Fleet.retries, one.name, two.name, failures]

theorem map_seen_none (row : Option JobRow) : row.map (seen none) = row := by
  cases row <;> rfl

end Views

/-- What a process knows of the row as it was at first. -/
def Stage.Knows (job : JobRow) : Stage → Prop
  | .deleting _ => job.oneOff = true
  | .storing readAt nextRunAt => job.oneOff = false ∧
      computeNextRun fleet.library fleet.moment readAt job.repeatInterval job.timezone =
        .ok nextRunAt
  | .requeueing found => Same job found ∧ fleet.retries found = true ∧
      (TimestampHelper.filled found.timezone).isSome = true
  | .counting found none => Same job found ∧ fleet.retries found = false
  | _ => True

/-- The call that a process has begun to write, if it counts at some time. -/
def Stage.pending (process : ι) (now : Int) : Stage → List (ι × Call)
  | .counting _ (some released) => [(process, .updateFailure released now)]
  | _ => []

omit [DecidableEq ι] in
theorem Stage.pending_of_not_open {stage : Stage} (closed : ¬ stage.Open) (process : ι)
    (now : Int) : stage.pending process now = [] := by
  cases stage with
  | counting found released =>
      cases released with
      | none => rfl
      | some released => exact (closed trivial).elim
  | _ => rfl

open Classical in
/-- The time that is to be seen in the row, if a process has still to count it. -/
noncomputable def State.pendingTime (state : State ι) (now : Int) : Option Int :=
  if ∃ process, (state.stage process).Open then some now else none

/-- Whole calls in some order have led to the row, up to the time of a pending count. -/
def Serial (row : Option JobRow) (state : State ι) : Prop :=
  ∀ now, ∃ order,
    (∀ process, order.filter (·.1 = process) =
      state.calls.filter (·.1 = process) ++ (state.stage process).pending process now) ∧
    execute fleet order row = some (state.row.map (seen (state.pendingTime now)))

/-- What holds in every state of a run. -/
structure Linear (row : Option JobRow) (state : State ι) : Prop where
  single : ∀ one other, (state.stage one).Open → (state.stage other).Open → one = other
  kept : ∀ job ∈ state.row, ∃ original ∈ row, Same original job
  knows : ∀ original ∈ row, ∀ process, (state.stage process).Knows fleet original
  counts : ∀ process found released, state.stage process = .counting found (some released) →
    ∀ job ∈ state.row, job.failures = found.failures + 1
  serial : Serial fleet row state

section Steps

variable {fleet} {row : Option JobRow} {state : State ι} {process : ι} {outcome : Outcome}

omit [DecidableEq ι] in
theorem execute_append (earlier later : List (ι × Call)) (row : Option JobRow) :
    execute fleet (earlier ++ later) row =
      (execute fleet earlier row).bind (execute fleet later) := by
  induction earlier generalizing row with
  | nil => rfl
  | cons call calls induction =>
      simp only [List.cons_append, execute, Option.bind_assoc]
      exact congrArg _ (funext induction)

omit [DecidableEq ι] in
theorem execute_concat {order : List (ι × Call)} {call : ι × Call} {row final : Option JobRow}
    (executed : execute fleet (order ++ [call]) row = some final) :
    ∃ before, execute fleet order row = some before ∧ call.2.apply fleet before = some final := by
  rw [execute_append] at executed
  obtain ⟨before, earlier, later⟩ := Option.bind_eq_some_iff.mp executed
  obtain ⟨after, applied, rest⟩ := Option.bind_eq_some_iff.mp later
  cases rest
  exact ⟨before, earlier, applied⟩

omit [DecidableEq ι] in
theorem execute_single {process : ι} {call : Call} {row final : Option JobRow}
    (applied : call.apply fleet row = some final) :
    execute fleet [(process, call)] row = some final := by
  rw [execute, applied]
  rfl

omit [DecidableEq ι] in
theorem lastResult_concat (order : List (ι × Call)) (call : ι × Call) :
    lastResult (order ++ [call]) = call.2.result.or (lastResult order) := by
  rw [lastResult, List.filterMap_append, List.getLast?_append]
  cases result : call.2.result <;> simp [result, lastResult]

theorem putBack_clear {readAt now : Int} {job : JobRow}
    (clear : (putBack fleet readAt now job).2 = true ∨ job.failures = 0 ∧ job.failedAt = none) :
    ∀ after ∈ (putBack fleet readAt now job).1, after.failures = 0 ∧ after.failedAt = none := by
  rw [putBack] at clear ⊢
  split
  · rintro after ⟨⟩
  · rename_i repeats
    rw [if_neg repeats] at clear
    split at clear <;> rintro after ⟨⟩
    · exact ⟨rfl, rfl⟩
    · exact clear.resolve_left Bool.false_ne_true

/-- A call that does not end a run, or ends it with success, leaves no failures behind if it finds
none. -/
theorem Call.apply_clear {call : Call} {before final : Option JobRow}
    (applied : call.apply fleet before = some final)
    (succeeded : call.result = some true ∨ call.result = none ∧
      ∀ job ∈ before, job.failures = 0 ∧ job.failedAt = none) :
    ∀ job ∈ final, job.failures = 0 ∧ job.failedAt = none := by
  rcases before with _ | job
  · cases call <;> cases applied <;> simp
  cases call with
  | enqueue now =>
      obtain ⟨-, clear⟩ := succeeded.resolve_left fun ended => by cases ended
      dsimp only [Call.apply] at applied
      split at applied
      · cases applied
        rintro after ⟨⟩
        exact clear job rfl
      · cases applied
  | updateStartTask now =>
      obtain ⟨-, clear⟩ := succeeded.resolve_left fun ended => by cases ended
      cases applied
      rintro after ⟨⟩
      exact clear job rfl
  | updateFinishTask readAt now success =>
      dsimp only [Call.apply] at applied
      split at applied
      · rename_i again
        cases applied
        refine putBack_clear ?_
        rcases success with _ | _
        · exact .inr ((succeeded.resolve_left fun ended => by cases ended).2 job rfl)
        · exact .inl (again rfl)
      · cases applied
  | updateFailure nextRunAt now =>
      rcases succeeded with ended | ⟨running, -⟩
      · cases ended
      · cases running

omit [DecidableEq ι] in
/-- Whole calls of which the last one that ends a run succeeds leave no failures behind. -/
theorem execute_clear {order : List (ι × Call)} {row final : Option JobRow}
    (executed : execute fleet order row = some final) (succeeded : lastResult order = some true) :
    ∀ job ∈ final, job.failures = 0 ∧ job.failedAt = none := by
  induction order using List.reverseRecOn generalizing final with
  | nil => cases succeeded
  | append_singleton order call induction =>
      obtain ⟨before, earlier, applied⟩ := execute_concat executed
      rw [lastResult_concat] at succeeded
      refine Call.apply_clear applied ?_
      cases result : call.2.result with
      | none =>
          rw [result, Option.none_or] at succeeded
          exact .inr ⟨rfl, induction earlier succeeded⟩
      | some outcome =>
          rw [result, Option.some_or] at succeeded
          exact .inl succeeded

theorem filter_own (process : ι) (calls : List Call) :
    (calls.map (Prod.mk process)).filter (·.1 = process) = calls.map (Prod.mk process) := by
  refine List.filter_eq_self.mpr fun entry member => ?_
  obtain ⟨call, -, rfl⟩ := List.mem_map.mp member
  exact decide_eq_true rfl

theorem filter_other {process other : ι} (apart : other ≠ process) (calls : List Call) :
    (calls.map (Prod.mk process)).filter (·.1 = other) = [] := by
  refine List.filter_eq_nil_iff.mpr fun entry member => ?_
  obtain ⟨call, -, rfl⟩ := List.mem_map.mp member
  exact fun same => apart (of_decide_eq_true same).symm

/-- The other processes stay at their stages. -/
theorem stage_proceed (other : ι) : (state.proceed process outcome).stage other =
    if other = process then outcome.stage else state.stage other := by
  show update state.stage process outcome.stage other = _
  rw [update_apply]

/-- Which processes have still to count does not change if the acting one does not. -/
theorem open_proceed (closed : ¬ (state.stage process).Open) (stays : ¬ outcome.stage.Open)
    (other : ι) :
    ((state.proceed process outcome).stage other).Open ↔ (state.stage other).Open := by
  rw [stage_proceed]
  split
  · rename_i same
    subst same
    exact iff_of_false stays closed
  · rfl

theorem pendingTime_proceed (closed : ¬ (state.stage process).Open)
    (stays : ¬ outcome.stage.Open) (now : Int) :
    (state.proceed process outcome).pendingTime now = state.pendingTime now := by
  have same : (∃ other, ((state.proceed process outcome).stage other).Open) ↔
      ∃ other, (state.stage other).Open := exists_congr (open_proceed closed stays)
  rw [State.pendingTime, State.pendingTime]
  by_cases opened : ∃ other, (state.stage other).Open
  · rw [if_pos opened, if_pos (same.mpr opened)]
  · rw [if_neg opened, if_neg (mt same.mp opened)]

omit [DecidableEq ι] in
theorem pendingTime_of_closed (closed : ∀ other, ¬ (state.stage other).Open) (now : Int) :
    state.pendingTime now = none := by
  rw [State.pendingTime, if_neg (not_exists.mpr closed)]

omit [DecidableEq ι] in
theorem pendingTime_of_open (opened : (state.stage process).Open) (now : Int) :
    state.pendingTime now = some now := by
  rw [State.pendingTime, if_pos ⟨process, opened⟩]

omit [DecidableEq ι] in
theorem closed_of_apart (own : ¬ (state.stage process).Open)
    (apart : ∀ other, other ≠ process → ¬ (state.stage other).Open) (other : ι) :
    ¬ (state.stage other).Open := by
  by_cases same : other = process
  · rw [same]
    exact own
  · exact apart other same

/-- A statement that leaves the failures alone, and is all of a call or no part of one. -/
structure Blind (fleet : Fleet) (state : State ι) (outcome : Outcome) : Prop where
  stays : ¬ outcome.stage.Open
  kept : ∀ after ∈ outcome.row, ∃ job ∈ state.row, Same job after ∧
    after.failures = job.failures ∧ after.failedAt = job.failedAt
  quiet : outcome.call = none → outcome.row = state.row
  whole : ∀ call, outcome.call = some call → ∀ now,
    call.apply fleet (state.row.map (seen now)) = some (outcome.row.map (seen now))

namespace Linear

/-- The order of the calls after a statement, from one for an earlier time of the pending count. -/
theorem serial_proceed (linear : Linear fleet row state) {now : Int} (earlier : Int)
    (added : List Call)
    (own : outcome.call.toList.map (Prod.mk process) ++ outcome.stage.pending process now =
      (state.stage process).pending process earlier ++ added.map (Prod.mk process))
    (apart : ∀ other, other ≠ process →
      (state.stage other).pending other now = (state.stage other).pending other earlier)
    (leads : execute fleet (added.map (Prod.mk process))
      (state.row.map (seen (state.pendingTime earlier))) =
        some (outcome.row.map (seen ((state.proceed process outcome).pendingTime now)))) :
    ∃ order,
      (∀ other, order.filter (·.1 = other) =
        (state.proceed process outcome).calls.filter (·.1 = other) ++
          ((state.proceed process outcome).stage other).pending other now) ∧
      execute fleet order row = some ((state.proceed process outcome).row.map
        (seen ((state.proceed process outcome).pendingTime now))) := by
  obtain ⟨order, agrees, before⟩ := linear.serial earlier
  refine ⟨order ++ added.map (Prod.mk process), fun other => ?_, ?_⟩
  · have calls : (state.proceed process outcome).calls =
        state.calls ++ outcome.call.toList.map (Prod.mk process) := rfl
    rw [calls, List.filter_append, List.filter_append, agrees, stage_proceed, List.append_assoc,
      List.append_assoc]
    by_cases same : other = process
    · subst same
      rw [if_pos rfl, filter_own, filter_own, own]
    · rw [if_neg same, filter_other same, filter_other same, apart other same, List.append_nil,
        List.nil_append]
  · rw [execute_append, before]
    exact leads

/-- A statement of a process that neither has to count the row nor has to afterwards. -/
theorem serial_closed (linear : Linear fleet row state)
    (closed : ¬ (state.stage process).Open) (stays : ¬ outcome.stage.Open)
    (leads : ∀ now, execute fleet (outcome.call.toList.map (Prod.mk process))
      (state.row.map (seen (state.pendingTime now))) =
        some (outcome.row.map (seen (state.pendingTime now)))) :
    Serial fleet row (state.proceed process outcome) := by
  intro now
  refine linear.serial_proceed now outcome.call.toList ?_ (fun _ _ => rfl) ?_
  · rw [Stage.pending_of_not_open closed, Stage.pending_of_not_open stays, List.append_nil,
      List.nil_append]
  · rw [pendingTime_proceed closed stays, leads]

theorem knows_proceed (linear : Linear fleet row state)
    (knows : ∀ original ∈ row, outcome.stage.Knows fleet original) :
    ∀ original ∈ row, ∀ other,
      ((state.proceed process outcome).stage other).Knows fleet original := by
  intro original present other
  rw [stage_proceed]
  split
  · exact knows original present
  · exact linear.knows original present other

/-- A statement that leaves the failures alone keeps the invariant. -/
theorem blind (linear : Linear fleet row state) (closed : ¬ (state.stage process).Open)
    (knows : ∀ original ∈ row, outcome.stage.Knows fleet original)
    (blind : Blind fleet state outcome) : Linear fleet row (state.proceed process outcome) where
  single one other first second :=
    linear.single one other ((open_proceed closed blind.stays one).mp first)
      ((open_proceed closed blind.stays other).mp second)
  kept after present := by
    obtain ⟨job, before, same, -, -⟩ := blind.kept after present
    obtain ⟨original, first, was⟩ := linear.kept job before
    exact ⟨original, first, was.trans same⟩
  knows := linear.knows_proceed knows
  counts other found released counting after present := by
    have opened : ((state.proceed process outcome).stage other).Open := by
      rw [counting]
      trivial
    have before := (open_proceed closed blind.stays other).mp opened
    rw [stage_proceed] at counting
    split at counting
    · rename_i own
      subst own
      exact (closed before).elim
    · obtain ⟨job, held, -, failures, -⟩ := blind.kept after present
      rw [failures]
      exact linear.counts other found released counting job held
  serial := by
    refine linear.serial_closed closed blind.stays fun now => ?_
    cases completes : outcome.call with
    | none =>
        rw [blind.quiet completes]
        rfl
    | some call => exact execute_single (blind.whole call completes _)

/-- A statement that completes a call while no process has still to count the row. -/
theorem alone (linear : Linear fleet row state) {call : Call}
    (closed : ∀ other, ¬ (state.stage other).Open) (stays : ¬ outcome.stage.Open)
    (knows : ∀ original ∈ row, outcome.stage.Knows fleet original)
    (kept : ∀ after ∈ outcome.row, ∃ job ∈ state.row, Same job after)
    (completes : outcome.call = some call)
    (applied : call.apply fleet state.row = some outcome.row) :
    Linear fleet row (state.proceed process outcome) := by
  have after : ∀ other, ¬ ((state.proceed process outcome).stage other).Open :=
    fun other opened => closed other ((open_proceed (closed process) stays other).mp opened)
  refine
    { single := fun one other opened => (after one opened).elim
      kept := fun job present => ?_
      knows := linear.knows_proceed knows
      counts := fun other found released counting => ?_
      serial := linear.serial_closed (closed process) stays fun now => ?_ }
  · obtain ⟨before, held, same⟩ := kept job present
    obtain ⟨original, first, was⟩ := linear.kept before held
    exact ⟨original, first, was.trans same⟩
  · refine (after other ?_).elim
    rw [counting]
    trivial
  · rw [pendingTime_of_closed closed, map_seen_none, map_seen_none, completes]
    exact execute_single applied

/-- The row as it was at first. -/
theorem same (linear : Linear fleet row state) {original job : JobRow} (first : original ∈ row)
    (held : job ∈ state.row) : Same original job := by
  obtain ⟨other, present, same⟩ := linear.kept job held
  rwa [Option.mem_unique first present]

/-- A process puts the row back. -/
theorem storing (linear : Linear fleet row state) {readAt now : Int} {nextRunAt : Option Int}
    {job : JobRow} (reached : state.stage process = .storing readAt nextRunAt)
    (held : state.row = some job)
    (apart : ∀ other, other ≠ process → ¬ (state.stage other).Open) :
    Linear fleet row (state.proceed process
      ⟨some ((Fleet.finished now nextRunAt).apply job), .settled,
        some (.updateFinishTask readAt now true)⟩) := by
  have closed := closed_of_apart (by rw [reached]; exact id) apart
  obtain ⟨original, first, same⟩ := linear.kept job held
  have known : (Stage.storing readAt nextRunAt).Knows fleet original :=
    reached ▸ linear.knows original first process
  refine linear.alone closed id (fun _ _ => trivial) ?_ rfl ?_
  · rintro after ⟨⟩
    exact ⟨job, held, same_apply _ job⟩
  · have repeats : job.oneOff = false := same.oneOff.trans known.1
    have stored : putBack fleet readAt now job =
        (some ((Fleet.finished now nextRunAt).apply job), true) := by
      rw [putBack, repeats, if_neg Bool.false_ne_true, same.repeatInterval, same.timezone, known.2]
    rw [held]
    dsimp only [Call.apply]
    rw [stored, if_pos fun _ => rfl]

/-- A process counts a failure of the row in a single update. -/
theorem counting (linear : Linear fleet row state) {now : Int} {found job : JobRow}
    (reached : state.stage process = .counting found none) (held : state.row = some job)
    (current : job.failures = found.failures)
    (apart : ∀ other, other ≠ process → ¬ (state.stage other).Open) :
    Linear fleet row (state.proceed process
      ⟨some ((Fleet.failed now found).apply job), .settled,
        some (.updateFailure now now)⟩) := by
  have closed := closed_of_apart (by rw [reached]; exact id) apart
  obtain ⟨original, first, same⟩ := linear.kept job held
  have known : (Stage.counting found none).Knows fleet original :=
    reached ▸ linear.knows original first process
  refine linear.alone closed id (fun _ _ => trivial) ?_ rfl ?_
  · rintro after ⟨⟩
    exact ⟨job, held, same_apply _ job⟩
  · have spent : fleet.retries job = false := (known.1.retries same current).trans known.2
    show some (state.row.map (counted fleet now now)) = _
    rw [held, Option.map_some, counted, spent, if_neg Bool.false_ne_true, Fleet.failed,
      Fleet.failed, current]

/-- A process releases the row and has still to count it. -/
theorem requeueing (linear : Linear fleet row state) {now : Int} {delay : Nat}
    {found job : JobRow} (reached : state.stage process = .requeueing found)
    (held : state.row = some job) (current : job.failures = found.failures)
    (apart : ∀ other, other ≠ process → ¬ (state.stage other).Open) :
    Linear fleet row (state.proceed process
      ⟨some ((Fleet.retried now delay found).apply job),
        .counting found (some (now + delay)), none⟩) := by
  have closed := closed_of_apart (by rw [reached]; exact id) apart
  obtain ⟨original, first, same⟩ := linear.kept job held
  have known : (Stage.requeueing found).Knows fleet original :=
    reached ▸ linear.knows original first process
  generalize outcome_eq : Outcome.mk (some ((Fleet.retried now delay found).apply job))
    (.counting found (some (now + delay))) none = outcome
  have only : ∀ other, ((state.proceed process outcome).stage other).Open → other = process := by
    intro other opened
    by_contra own
    rw [stage_proceed, if_neg own] at opened
    exact apart other own opened
  have opened : ((state.proceed process outcome).stage process).Open := by
    rw [stage_proceed, if_pos rfl, ← outcome_eq]
    trivial
  have kept : (state.proceed process outcome).row =
      some ((Fleet.retried now delay found).apply job) := by
    rw [← outcome_eq]
    rfl
  refine
    { single := fun one other first second => (only one first).trans (only other second).symm
      kept := fun after present => ?_
      knows := linear.knows_proceed fun _ _ => by rw [← outcome_eq]; trivial
      counts := fun other before released counting after present => ?_
      serial := fun time => ?_ }
  · rw [kept] at present
    cases present
    exact ⟨original, first, same.trans (same_apply _ job)⟩
  · have own : other = process := only other (by rw [counting]; trivial)
    rw [stage_proceed, if_pos own, ← outcome_eq] at counting
    rw [kept] at present
    cases counting
    cases present
    rfl
  · have tried : fleet.retries job = true := (known.1.retries same current).trans known.2.1
    have zoned : (TimestampHelper.filled job.timezone).isSome = true := by
      rw [same.timezone, ← known.1.timezone]
      exact known.2.2
    -- At whatever time the row will be counted, the call can be put at the end at once.
    refine linear.serial_proceed time [.updateFailure (now + delay) time] ?_ (fun _ _ => rfl) ?_
    · rw [Stage.pending_of_not_open (closed process), ← outcome_eq]
      rfl
    · rw [pendingTime_of_closed closed, map_seen_none, held, pendingTime_of_open opened]
      refine execute_single ?_
      rw [← outcome_eq]
      show some (some (counted fleet (now + delay) time job)) = _
      rw [counted, if_pos tried, if_pos zoned]
      simp [Fleet.failed, Fleet.retried, seen, RowUpdate.apply, current]

/-- A process counts the row that it has released. -/
theorem released (linear : Linear fleet row state) {now released : Int} {found : JobRow}
    (reached : state.stage process = .counting found (some released)) :
    Linear fleet row (state.proceed process
      ⟨state.row.map (Fleet.failed now found).apply, .settled,
        some (.updateFailure released now)⟩) := by
  have opened : (state.stage process).Open := by
    rw [reached]
    trivial
  generalize outcome_eq : Outcome.mk (state.row.map (Fleet.failed now found).apply) .settled
    (some (.updateFailure released now)) = outcome
  have apart : ∀ other, other ≠ process → ¬ (state.stage other).Open :=
    fun other own before => own (linear.single other process before opened)
  have closed : ∀ other, ¬ ((state.proceed process outcome).stage other).Open := by
    intro other
    rw [stage_proceed]
    split
    · rw [← outcome_eq]
      exact id
    · rename_i own
      exact apart other own
  have after : (state.proceed process outcome).row =
      state.row.map (Fleet.failed now found).apply := by
    rw [← outcome_eq]
    rfl
  refine
    { single := fun one other first => (closed one first).elim
      kept := fun job present => ?_
      knows := linear.knows_proceed fun _ _ => by rw [← outcome_eq]; trivial
      counts := fun other before released counting => ?_
      serial := fun time => ?_ }
  · rw [after] at present
    obtain ⟨before, held, rfl⟩ := Option.mem_map.mp present
    obtain ⟨original, first, was⟩ := linear.kept before held
    exact ⟨original, first, was.trans (same_apply _ before)⟩
  · refine (closed other ?_).elim
    rw [counting]
    trivial
  · -- The order that holds for the time that is written now has the call in its place.
    refine linear.serial_proceed now [] ?_ (fun other own => ?_) ?_
    · rw [reached, ← outcome_eq]
      rfl
    · rw [Stage.pending_of_not_open (apart other own), Stage.pending_of_not_open (apart other own)]
    · rw [pendingTime_of_open opened, pendingTime_of_closed closed, map_seen_none, ← outcome_eq]
      refine congrArg some (Option.map_congr fun job held => ?_)
      have failures := linear.counts process found released reached job held
      simp [Fleet.failed, seen, RowUpdate.apply, ← failures]

end Linear

omit [DecidableEq ι] in
/-- A statement that only reads the row. -/
theorem Blind.reading {current : Option JobRow} {stage : Stage} (held : state.row = current)
    (stays : ¬ stage.Open) : Blind fleet state ⟨current, stage, none⟩ where
  stays := stays
  kept after present := ⟨after, held.trans present, Same.refl after, rfl, rfl⟩
  quiet _ := held.symm
  whole _ completes := by cases completes

omit [DecidableEq ι] in
/-- A statement that completes a call and leaves the row as it is. -/
theorem Blind.ending {current : Option JobRow} {stage : Stage} {call : Call}
    (held : state.row = current) (stays : ¬ stage.Open)
    (whole : ∀ now, call.apply fleet (current.map (seen now)) = some (current.map (seen now))) :
    Blind fleet state ⟨current, stage, some call⟩ where
  stays := stays
  kept after present := ⟨after, held.trans present, Same.refl after, rfl, rfl⟩
  quiet completes := by cases completes
  whole call completes time := by
    cases completes
    rw [held]
    exact whole time

omit [DecidableEq ι] in
theorem Blind.enqueue {now : Int} {job : JobRow} (held : state.row = some job)
    (free : fleet.enqueueable now job = true) :
    Blind fleet state
      ⟨some ((enqueued now).apply job), .lookingUp, some (.enqueue now)⟩ where
  stays := id
  kept after present := by
    cases present
    exact ⟨job, held, same_apply _ job, rfl, rfl⟩
  quiet completes := by cases completes
  whole call completes time := by
    cases completes
    rw [held]
    exact if_pos free

omit [DecidableEq ι] in
theorem Blind.updateStartTask {now : Int} {job : JobRow} (held : state.row = some job) :
    Blind fleet state
      ⟨some ((accepted now).apply job), .executing, some (.updateStartTask now)⟩ where
  stays := id
  kept after present := by
    cases present
    exact ⟨job, held, same_apply _ job, rfl, rfl⟩
  quiet completes := by cases completes
  whole call completes time := by
    cases completes
    rw [held]
    rfl

namespace Linear

/-- A process deletes the row of a job without a repeat interval. -/
theorem deleting (linear : Linear fleet row state) {readAt now : Int}
    (reached : state.stage process = .deleting readAt) :
    Linear fleet row (state.proceed process
      ⟨none, .failing, some (.updateFinishTask readAt now false)⟩) := by
  have erased : ∀ time, (Call.updateFinishTask readAt now false).apply fleet
      (state.row.map (seen time)) = some none := by
    intro time
    rcases held : state.row with _ | job
    · rfl
    · obtain ⟨original, first, same⟩ := linear.kept job held
      have known : (Stage.deleting readAt).Knows fleet original :=
        reached ▸ linear.knows original first process
      have once : (seen time job).oneOff = true := same.oneOff.trans known
      rw [Option.map_some]
      dsimp only [Call.apply]
      rw [putBack, if_pos once, if_pos fun success => by cases success]
  exact linear.blind (by rw [reached]; exact id) (fun _ _ => trivial)
    { stays := id
      kept := fun after present => by cases present
      quiet := fun completes => by cases completes
      whole := fun call completes time => by
        cases completes
        exact erased time }

/-- A process reads the row before it puts it back. -/
theorem finishing (linear : Linear fleet row state) {now : Int} {delay : Nat}
    (reached : state.stage process = .finishing)
    (stated : statement fleet now delay state.row .finishing = some outcome) :
    Linear fleet row (state.proceed process outcome) := by
  have closed : ¬ (state.stage process).Open := by
    rw [reached]
    exact id
  rcases held : state.row with _ | job
  · rw [held] at stated
    cases stated
    exact linear.blind closed (fun _ _ => trivial) (.ending held id fun _ => rfl)
  rw [held] at stated
  dsimp only [statement] at stated
  split at stated
  · rename_i once
    cases stated
    exact linear.blind closed (fun _ first => (linear.same first held).oneOff.symm.trans once)
      (.reading held id)
  rename_i repeats
  have repeats : job.oneOff = false := eq_false_of_ne_true repeats
  split at stated
  · rename_i nextRunAt planned
    cases stated
    refine linear.blind closed (fun original first => ?_) (.reading held id)
    have same := linear.same first held
    refine ⟨same.oneOff.symm.trans repeats, ?_⟩
    rw [← same.repeatInterval, ← same.timezone]
    exact planned
  · rename_i error failed
    cases stated
    refine linear.blind closed (fun _ _ => trivial) (.ending held id fun time => ?_)
    have again : (seen time job).oneOff = false := repeats
    have fails : computeNextRun fleet.library fleet.moment now (seen time job).repeatInterval
        (seen time job).timezone = .error error := failed
    rw [Option.map_some]
    dsimp only [Call.apply]
    rw [putBack, again, if_neg Bool.false_ne_true, fails, if_pos fun success => by cases success]

/-- A process reads the row before it counts a failure. -/
theorem failing (linear : Linear fleet row state) {now : Int} {delay : Nat}
    (reached : state.stage process = .failing)
    (stated : statement fleet now delay state.row .failing = some outcome) :
    Linear fleet row (state.proceed process outcome) := by
  have closed : ¬ (state.stage process).Open := by
    rw [reached]
    exact id
  rcases held : state.row with _ | job
  · rw [held] at stated
    cases stated
    exact linear.blind closed (fun _ _ => trivial) (.ending held id fun _ => rfl)
  rw [held] at stated
  dsimp only [statement] at stated
  split at stated
  · rename_i tried
    split at stated
    · rename_i zoned
      cases stated
      exact linear.blind closed (fun _ first => ⟨linear.same first held, tried, zoned⟩)
        (.reading held id)
    · rename_i zoned
      cases stated
      refine linear.blind closed (fun _ _ => trivial) (.ending held id fun time => ?_)
      have again : fleet.retries (seen time job) = true := tried
      have nowhere : ¬ (TimestampHelper.filled (seen time job).timezone).isSome = true := zoned
      rw [Call.apply, Option.map_some, Option.map_some, counted, if_pos again, if_neg nowhere]
  · rename_i spent
    cases stated
    exact linear.blind closed
      (fun _ first => ⟨linear.same first held, eq_false_of_ne_true spent⟩) (.reading held id)

/-- A statement keeps the invariant. -/
theorem act (linear : Linear fleet row state) {now : Int} {delay : Nat}
    (exclusive : Exclusive state (.act process now delay))
    (stated : statement fleet now delay state.row (state.stage process) = some outcome) :
    Linear fleet row (state.proceed process outcome) := by
  cases reached : state.stage process with
  | idle =>
      rw [reached] at stated
      rcases held : state.row with _ | job
      · rw [held] at stated
        cases stated
      rw [held] at stated
      dsimp only [statement] at stated
      split at stated
      · rename_i free
        cases stated
        exact linear.blind (by rw [reached]; exact id) (fun _ _ => trivial) (.enqueue held free)
      · cases stated
  | lookingUp =>
      rw [reached] at stated
      rcases held : state.row with _ | job <;>
      · rw [held] at stated
        cases stated
        exact linear.blind (by rw [reached]; exact id) (fun _ _ => trivial) (.reading held id)
  | starting =>
      rw [reached] at stated
      rcases held : state.row with _ | job
      · rw [held] at stated
        cases stated
        exact linear.blind (by rw [reached]; exact id) (fun _ _ => trivial) (.reading held id)
      · rw [held] at stated
        cases stated
        exact linear.blind (by rw [reached]; exact id) (fun _ _ => trivial) (.updateStartTask held)
  | executing =>
      rw [reached] at stated
      cases stated
  | finishing =>
      rw [reached] at stated
      exact linear.finishing reached stated
  | deleting readAt =>
      rw [reached] at stated
      cases stated
      exact linear.deleting reached
  | storing readAt nextRunAt =>
      rw [reached] at stated
      rcases held : state.row with _ | job
      · rw [held] at stated
        cases stated
        exact linear.blind (by rw [reached]; exact id) (fun _ _ => trivial)
          (.ending held id fun _ => rfl)
      · rw [held] at stated
        cases stated
        rw [Exclusive, reached] at exclusive
        exact linear.storing reached held exclusive
  | failing =>
      rw [reached] at stated
      exact linear.failing reached stated
  | requeueing found =>
      rw [reached] at stated
      rcases held : state.row with _ | job
      · rw [held] at stated
        cases stated
        exact linear.blind (by rw [reached]; exact id) (fun _ _ => trivial)
          (.ending held id fun _ => rfl)
      · rw [held] at stated
        cases stated
        rw [Exclusive, reached] at exclusive
        exact linear.requeueing reached held (exclusive.1 job held) exclusive.2
  | counting found released =>
      rw [reached] at stated
      cases stated
      rcases released with _ | released
      · rcases held : state.row with _ | job
        · exact linear.blind (by rw [reached]; exact id) (fun _ _ => trivial)
            (.ending held id fun _ => rfl)
        · rw [Exclusive, reached] at exclusive
          exact linear.counting reached held (exclusive.1 job held) exclusive.2
      · exact linear.released reached
  | settled =>
      rw [reached] at stated
      cases stated

/-- The next statement, or the end of a task, keeps the invariant. -/
theorem step (linear : Linear fleet row state) {event : Event ι} {after : State ι}
    (exclusive : Exclusive state event)
    (stepped : (system fleet ι).step state event = some after) : Linear fleet row after := by
  cases event with
  | act process now delay =>
      obtain ⟨outcome, stated, rfl⟩ := Option.map_eq_some_iff.mp stepped
      exact linear.act exclusive stated
  | complete process succeeded =>
      change Bookkeeping.step fleet state (.complete process succeeded) = some after at stepped
      dsimp only [Bookkeeping.step] at stepped
      split at stepped
      · rename_i reached
        cases stepped
        refine linear.blind (by rw [reached]; exact id) (fun _ _ => ?_) (.reading rfl ?_)
        · cases succeeded <;> trivial
        · cases succeeded <;> exact id
      · cases stepped

/-- The invariant holds before anything has been carried out. -/
theorem initial (row : Option JobRow) {stage : ι → Stage}
    (fresh : ∀ process, (stage process).Fresh) : Linear fleet row (State.initial row stage) := by
  have closed : ∀ process, ¬ (stage process).Open := by
    intro process opened
    have fresh := fresh process
    cases reached : stage process <;> simp_all [Stage.Open, Stage.Fresh]
  refine
    { single := fun one other opened => (closed one opened).elim
      kept := fun job held => ⟨job, held, Same.refl job⟩
      knows := fun original _ process => ?_
      counts := fun other found released counting => ?_
      serial := fun now => ⟨[], fun process => ?_, ?_⟩ }
  · have fresh := fresh process
    show (stage process).Knows fleet original
    cases reached : stage process <;> simp_all [Stage.Knows, Stage.Fresh]
  · refine (closed other ?_).elim
    have reached : stage other = _ := counting
    rw [reached]
    trivial
  · exact (Stage.pending_of_not_open (closed process) process now).symm
  · rw [pendingTime_of_closed closed, map_seen_none]
    rfl

/-- While no process has still to count the row, the bookkeeping is that of whole calls. -/
theorem atomic (linear : Linear fleet row state) (closed : ∀ other, ¬ (state.stage other).Open) :
    Atomic fleet row state := by
  obtain ⟨order, agrees, leads⟩ := linear.serial 0
  rw [pendingTime_of_closed closed, map_seen_none] at leads
  refine ⟨order, fun process => ?_, leads, execute_clear leads⟩
  rw [agrees, Stage.pending_of_not_open (closed process), List.append_nil]

end Linear

end Steps

/-- Bookkeeping is that of whole calls whenever no process has still to count the row, if failures
are first written on the row that has been read and nothing is written between the two updates of
another process. -/
theorem atomic_of_exclusive (row : Option JobRow) {stage : ι → Stage}
    (fresh : ∀ process, (stage process).Fresh) {events : List (Event ι)} {final : State ι}
    (exclusive : (system fleet ι).Along Exclusive events (State.initial row stage))
    (execution : (system fleet ι).run events (State.initial row stage) = some final)
    (closed : ∀ process, ¬ (final.stage process).Open) : Atomic fleet row final := by
  have preserved : ∀ before event after, Linear fleet row before → Exclusive before event →
      (system fleet ι).step before event = some after → Linear fleet row after :=
    fun before event after linear exclusive stepped => linear.step exclusive stepped
  have linear := System.invariant_run preserved (Linear.initial row fresh) exclusive execution
  exact linear.atomic closed

/-! ## A success that is forgotten -/

/-- Mails are safe and restarted. -/
def mailFleet : Fleet where
  library := hourlyRules
  moment := universalTime
  package := .prisma
  settings :=
    { jobsSafeToRestart := ["mail"]
      jobsRiskyToRestart := []
      jobsCustomRestart := []
      tasks := ["mail"]
      wrapped := ["mail"] }

/-- A mail that is queued and has failed once before. -/
def mailRow : JobRow where
  toJob := { hourlyJob with failures := 1 }
  name := "mail"
  lastRunAt := some (exactSecond - 3000)
  acceptedAt := some (exactSecond - 2000)
  deletedAt := none

/-- The first process counts the failure of the mail, the second one may send it again. -/
def mailStart : State Bool :=
  State.initial (some mailRow) fun second => if second then .idle else .failing

/-- The second process sends the mail and puts it back. -/
def mailSucceeds : List (Event Bool) :=
  List.replicate 3 (.act true exactSecond 0) ++ .complete true true ::
    List.replicate 2 (.act true (exactSecond + 500) 0)

/-- The failures of the mail, and what has been called. -/
def mailObserved (state : State Bool) : Option (Bool × Nat) × List Bool × List (Bool × Call) :=
  (state.row.map fun job => (job.queued, job.failures),
    [false, true].map fun second => decide ((state.stage second).Open), state.calls)

/-- The mail is sent again before its failure has been counted for the second time. -/
def mailBetween : List (Event Bool) :=
  List.replicate 2 (.act false (exactSecond - 1000) 0) ++ mailSucceeds ++
    [.act false (exactSecond + 1000) 0]

theorem mailBetween_observed :
    ((system mailFleet Bool).run mailBetween mailStart).map mailObserved =
      some (some (false, 2), [false, false],
        [(true, .enqueue exactSecond), (true, .updateStartTask exactSecond),
          (true, .updateFinishTask (exactSecond + 500) (exactSecond + 500) true),
          (false, .updateFailure (exactSecond - 1000) (exactSecond + 1000))]) := by
  decide +kernel

theorem mailRow_queued : (Call.enqueue exactSecond).apply mailFleet (some mailRow) = none := by
  decide +kernel

/-- The mail has been sent again and has succeeded, and it has failures that no order of the calls
leads to. -/
theorem success_forgotten : ∃ final,
    (system mailFleet Bool).run mailBetween mailStart = some final ∧
      (∀ process, (mailStart.stage process).Fresh) ∧
      (∀ process, ¬ (final.stage process).Open) ∧
      (final.row.map fun job => job.failures) = some 2 ∧
      ¬ Atomic mailFleet (some mailRow) final := by
  obtain ⟨final, execution, observed⟩ := Option.map_eq_some_iff.mp mailBetween_observed
  simp only [mailObserved, Prod.mk.injEq, List.map_cons, List.map_nil, List.cons.injEq,
    decide_eq_false_iff_not, and_true] at observed
  obtain ⟨isRow, ⟨first, second⟩, isCalls⟩ := observed
  obtain ⟨job, held, columns⟩ := Option.map_eq_some_iff.mp isRow
  obtain ⟨-, failures⟩ := Prod.mk.inj columns
  refine ⟨final, execution, ?_, ?_, by rw [held, Option.map_some, failures], ?_⟩
  · rintro (_ | _) <;> exact trivial
  · rintro (_ | _)
    · exact first
    · exact second
  rintro ⟨order, agrees, executed, succeeded⟩
  have counts := agrees false
  have sends := agrees true
  rw [isCalls] at counts sends
  -- The mail is queued at first, so that the second process comes after the first one.
  rcases order with _ | ⟨⟨_ | _, call⟩, order⟩
  · cases counts
  · have fails : call = .updateFailure (exactSecond - 1000) (exactSecond + 1000) :=
      congrArg Prod.snd (List.cons.inj counts).1
    have counts := (List.cons.inj counts).2
    have after : order.filter (·.1 = true) = order := by
      refine List.filter_eq_self.mpr fun entry member => ?_
      have other := List.filter_eq_nil_iff.mp counts entry member
      rcases entry with ⟨_ | _, _⟩
      · exact (other rfl).elim
      · rfl
    rw [fails, after.symm.trans sends] at succeeded
    rw [(succeeded rfl job held).1] at failures
    cases failures
  · have enqueues : call = .enqueue exactSecond := congrArg Prod.snd (List.cons.inj sends).1
    rw [enqueues, execute, mailRow_queued] at executed
    cases executed

/-- The mail is sent again after its failure has been counted. -/
def mailAfterwards : List (Event Bool) :=
  List.replicate 3 (.act false (exactSecond - 1000) 0) ++ mailSucceeds

theorem mailAfterwards_observed :
    ((system mailFleet Bool).run mailAfterwards mailStart).map mailObserved =
      some (some (false, 0), [false, false],
        [(false, .updateFailure (exactSecond - 1000) (exactSecond - 1000)),
          (true, .enqueue exactSecond), (true, .updateStartTask exactSecond),
          (true, .updateFinishTask (exactSecond + 500) (exactSecond + 500) true)]) := by
  decide +kernel

/-- The success of a mail that is sent again later is kept. -/
theorem success_kept : ∃ final,
    (system mailFleet Bool).run mailAfterwards mailStart = some final ∧
      (final.row.map fun job => job.failures) = some 0 ∧
      Atomic mailFleet (some mailRow) final := by
  obtain ⟨final, execution, observed⟩ := Option.map_eq_some_iff.mp mailAfterwards_observed
  simp only [mailObserved, Prod.mk.injEq, List.map_cons, List.map_nil, List.cons.injEq,
    decide_eq_false_iff_not, and_true] at observed
  obtain ⟨isRow, ⟨first, second⟩, -⟩ := observed
  obtain ⟨job, held, columns⟩ := Option.map_eq_some_iff.mp isRow
  obtain ⟨-, failures⟩ := Prod.mk.inj columns
  refine ⟨final, execution, by rw [held, Option.map_some, failures], ?_⟩
  refine atomic_of_exclusive mailFleet (some mailRow) ?_ ?_ execution ?_
  · rintro (_ | _) <;> exact trivial
  · decide +kernel
  · rintro (_ | _)
    · exact first
    · exact second

end Bookkeeping

end Steveo.Scheduler
