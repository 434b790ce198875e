import Mathlib.Algebra.Group.Nat.Defs
import Steveo.Library.Execution
import Steveo.Scheduler.Maintenance

/-!
# A fleet of schedulers

This file models the processes of one scheduler that share a jobs table, in either package.  A tick
enqueues some due jobs and then goes through them one after the other, or publishes messages for
consumers; the timestamp helper reads and writes the row of a job around its task; the maintenance
is the task of the job `check`.  The database carries out one statement at a time and may refuse
any of them, and a process may crash at any point.  A statement reads the clock when it is carried
out.
-/

namespace Steveo.Scheduler

/-- What all processes have in common. -/
structure Fleet where
  library : RRuleLibrary
  moment : Moment
  package : Package
  settings : Settings

namespace Fleet

/-! ## Statements -/

/-- What a statement does to the table. -/
inductive Statement
  | read
  | write (condition : JobRow → Bool) (update : RowUpdate)
  | delete (condition : JobRow → Bool)

/-- The table after a statement. -/
def Statement.apply (table : JobTable) : Statement → JobTable
  | .read => table
  | .write condition update => table.write condition update
  | .delete condition => table.delete condition

/-- The rows that a statement changes. -/
def Statement.selects : Statement → JobRow → Bool
  | .read, _ => false
  | .write condition _, row | .delete condition, row => condition row

/-- A row that has been loaded, with the columns that were assigned and not saved. -/
structure JobInstance where
  values : JobRow
  unsaved : RowUpdate := {}

/-- A column that is assigned a new value waits to be saved. -/
def assigned {α : Type} [DecidableEq α] (old new unsaved : Option α) : Option α :=
  if new = none ∨ new = old then unsaved else new

/-- Assign columns of a loaded row. -/
def JobInstance.assign (loaded : JobInstance) (update : RowUpdate) : JobInstance where
  values := update.apply loaded.values
  unsaved :=
    { queued := assigned (some loaded.values.queued) update.queued loaded.unsaved.queued
      lastRunAt := assigned loaded.values.lastRunAt update.lastRunAt loaded.unsaved.lastRunAt
      nextRunAt := assigned loaded.values.nextRunAt update.nextRunAt loaded.unsaved.nextRunAt
      acceptedAt := assigned loaded.values.acceptedAt update.acceptedAt loaded.unsaved.acceptedAt
      lastFinishedAt :=
        assigned loaded.values.lastFinishedAt update.lastFinishedAt loaded.unsaved.lastFinishedAt
      failures := assigned (some loaded.values.failures) update.failures loaded.unsaved.failures
      failedAt := assigned (some loaded.values.failedAt) update.failedAt loaded.unsaved.failedAt }

/-- Finishing a job. -/
def finished (now : Int) (nextRunAt : Option Int) : RowUpdate where
  queued := some false
  nextRunAt := nextRunAt
  lastFinishedAt := some now
  failures := some 0
  failedAt := some none

/-- Finishing a row assigns the same columns as finishing its job. -/
theorem apply_finished (now : Int) (nextRunAt : Option Int) (row : JobRow) :
    ((finished now nextRunAt).apply row).toJob = row.toJob.finished now nextRunAt := rfl

/-- Counting a failure of a row that has been read. -/
def failed (now : Int) (row : JobRow) : RowUpdate where
  failures := some (row.failures + 1)
  failedAt := some (some now)

/-- Counting a failure and releasing the row after a delay. -/
def retried (now : Int) (delay : Nat) (row : JobRow) : RowUpdate :=
  { failed now row with queued := some false, nextRunAt := some (now + delay) }

variable (fleet : Fleet)

/-- The rows that a scheduler with a namespace selects are those of the namespace. -/
def owns (row : JobRow) : Bool :=
  match fleet.settings.nameSpace.filter (· ≠ "") with
  | none => true
  | some nameSpace => row.nameSpace = some nameSpace

/-- The row of a job as the timestamp helper addresses it. -/
def addresses (id : String) (row : JobRow) : Bool :=
  match fleet.package with
  | .prisma => row.id = id && fleet.owns row
  | .sequelize => row.id = id

/-- Look up the row of a job. -/
def lookUp (table : JobTable) (id : String) : Option JobRow :=
  (table.find id).filter (fleet.addresses id)

/-- The columns that an update of a loaded row writes.  The Sequelize scheduler saves the columns
that change. -/
def columns (loaded : JobInstance) (update : RowUpdate) : RowUpdate :=
  match fleet.package with
  | .prisma => update
  | .sequelize => (loaded.assign update).unsaved

/-- A loaded row after it has been updated. -/
def saved (loaded : JobRow) (update : RowUpdate) : JobRow :=
  match fleet.package with
  | .prisma => loaded
  | .sequelize => update.apply loaded

/-- Update the row of a job.  The Prisma scheduler throws if there is none. -/
def update (table : JobTable) (id : String) (loaded : JobInstance) (update : RowUpdate) :
    Option Statement :=
  if fleet.package = .prisma ∧ fleet.lookUp table id = none then none
  else some (.write (fleet.addresses id) (fleet.columns loaded update))

/-- Whether a failed job is tried again. -/
def retries (row : JobRow) : Bool :=
  row.failures < fleet.settings.maxRestartsOnFailure &&
    decide (row.name ∈ fleet.settings.jobsSafeToRestart)

/-- The longest delay before a failed job is tried again. -/
def retryDelay (row : JobRow) : Nat := fleet.settings.backOffMs * 2 ^ row.failures

/-! ## Maintenance passes -/

/-- Resets of jobs that are carried out concurrently; at least one of them is pending. -/
structure Resets where
  jobs : List (JobRow × Option Int)
  pending : jobs ≠ []

/-- The statement that a pass has come to. -/
inductive Progress
  | pending
  | safeBlocked
  | restartBlocked (ids : List String)
  | riskyBlocked
  | resetBlocked (resets : Resets)
  | safeLaggy
  | restartLaggy (ids : List String)
  | otherLaggy
  | resetLaggy (resets : Resets) (notifyJobs : List JobRow)

/-- The resets of the jobs whose next run is known. -/
def resets (now : Int) (jobs : List JobRow) : List (JobRow × Option Int) :=
  jobs.filterMap fun job =>
    (fleet.package.nextReset fleet.library fleet.moment now job).map fun nextRunAt =>
      (job, nextRunAt)

/-- The events that report some resets. -/
def reported (resets : List (JobRow × Option Int)) : List Notice :=
  resets.map fun reset => .reset (fleet.package.read reset.1) reset.2

/-- The statement that resets a job. -/
def resetStatement (reset : JobRow × Option Int) : Statement :=
  .write (fleet.package.resets reset.1)
    (fleet.columns { values := reset.1 } (fleet.package.reset reset.2))

namespace Progress

/-- The statement of a pass; a number tells which of several resets is meant. -/
def statement (now : Int) (choice : Nat) : Progress → Statement
  | .safeBlocked =>
      match fleet.package with
      | .prisma => .read
      | .sequelize =>
          .write (fleet.package.safeBlocked fleet.settings now) (fleet.package.restartBlocked now)
  | .restartBlocked ids => .write (fun row => row.id ∈ ids) (fleet.package.restartBlocked now)
  | .safeLaggy =>
      match fleet.package with
      | .prisma => .read
      | .sequelize =>
          .write (fleet.package.safeLaggy fleet.settings now) (Scheduler.restartLaggy now)
  | .restartLaggy ids => .write (fun row => row.id ∈ ids) (Scheduler.restartLaggy now)
  | .resetBlocked resets | .resetLaggy resets _ =>
      resets.jobs[choice]?.elim .read fleet.resetStatement
  | .pending | .riskyBlocked | .otherLaggy => .read

/-- Where a pass continues while blocked jobs are being reset. -/
def afterBlocked (resets : List (JobRow × Option Int)) : Progress :=
  if empty : resets = [] then .safeLaggy else .resetBlocked ⟨resets, empty⟩

/-- Where a pass continues while laggy jobs are being reset; then it reports the others. -/
def afterLaggy (resets : List (JobRow × Option Int)) (notifyJobs : List JobRow) :
    Option Progress × List Notice :=
  if empty : resets = [] then (none, lagged notifyJobs)
  else (some (.resetLaggy ⟨resets, empty⟩ notifyJobs), [])

/-- Where a pass continues after its statement has been carried out, and what it emits.  A pass ends
when it throws. -/
def next (now : Int) (table : JobTable) (choice : Nat) :
    Progress → Option (Option Progress × List Notice)
  | .pending =>
      match fleet.package.pendingJobs fleet.settings now table with
      | none => some (none, [])
      | some notice => some (some .safeBlocked, [notice])
  | .safeBlocked =>
      let ids := (table.select (fleet.package.safeBlocked fleet.settings now)).map fun row => row.id
      if fleet.package = .sequelize ∨ ids = [] then some (some .riskyBlocked, [])
      else some (some (.restartBlocked ids), [])
  | .restartBlocked _ => some (some .riskyBlocked, [])
  | .riskyBlocked =>
      let resets := fleet.resets now
        (table.select (fleet.package.riskyBlocked fleet.settings now))
      some (some (afterBlocked resets), fleet.reported resets)
  | .resetBlocked resets =>
      if choice < resets.jobs.length then
        some (some (afterBlocked (resets.jobs.eraseIdx choice)), [])
      else none
  | .safeLaggy =>
      let ids := (table.select (fleet.package.safeLaggy fleet.settings now)).map fun row => row.id
      if fleet.package = .sequelize ∨ ids = [] then some (some .otherLaggy, [])
      else some (some (.restartLaggy ids), [])
  | .restartLaggy _ => some (some .otherLaggy, [])
  | .otherLaggy =>
      let laggyJobs := table.select (fleet.package.otherLaggy fleet.settings now)
      let resets := fleet.resets now
        (laggyJobs.filter (fleet.package.resetsLaggy fleet.settings now))
      let notifyJobs := laggyJobs.filter (notifiesLaggy fleet.settings)
      let after := afterLaggy resets (notifyJobs.map fleet.package.read)
      some (after.1, fleet.reported resets ++ after.2)
  | .resetLaggy resets notifyJobs =>
      if choice < resets.jobs.length then some (afterLaggy (resets.jobs.eraseIdx choice) notifyJobs)
      else none

/-- Where a pass continues after its statement has been refused: a refused reset is logged, any
other refusal ends the pass. -/
def refused (choice : Nat) : Progress → Option (Option Progress × List Notice)
  | .resetBlocked resets =>
      if choice < resets.jobs.length then
        some (some (afterBlocked (resets.jobs.eraseIdx choice)), [])
      else none
  | .resetLaggy resets notifyJobs =>
      if choice < resets.jobs.length then some (afterLaggy (resets.jobs.eraseIdx choice) notifyJobs)
      else none
  | _ => some (none, [])

end Progress

/-! ## Tickets -/

/-- How far an enqueued job has come.  Loading its row, writing that it starts, executing its task
and putting it back follow each other; the Prisma scheduler reads the row again when the task has
ended and counts a failure in two statements. -/
inductive Stage
  | waiting
  | sent
  | lookingUp
  | starting (loaded : JobRow)
  | executing (loaded : Option JobRow)
  | maintaining (loaded : Option JobRow) (progress : Progress)
  | finishing (loaded : JobRow)
  | deleting (loaded : JobRow)
  | storing (loaded : JobRow) (nextRunAt : Option Int)
  | failing (loaded : JobInstance)
  | requeueing (found : JobRow)
  | counting (found : JobRow)
  | settled

/-- Whether a tick waits for a ticket before it goes on to the next one. -/
def Stage.busy : Stage → Bool
  | .sent | .settled => false
  | _ => true

/-- A job that a tick has enqueued. -/
structure Ticket where
  /-- The process that handles it at present. -/
  process : Nat
  job : String
  name : String
  data : Json
  stage : Stage

/-- What is observed of a job: its task is called, the timestamp helper reports whether it has
succeeded, or it is the maintenance job and emits an event. -/
inductive Deed
  | called
  | duration (success : Bool)
  | emitted (notice : Notice)

/-- A deed of a job. -/
structure Entry where
  job : String
  deed : Deed

/-- What follows when a ticket is answered. -/
structure Outcome where
  stage : Stage
  statement : Statement := .read
  deeds : List Deed := []

/-- What happens to a ticket: a tick comes to it, a consumer receives its message, its task ends,
or the database answers the pending statement. -/
inductive Answer
  | begun
  | delivered (process : Nat)
  | completed (succeeded : Bool)
  | done (choice : Nat)
  | refused (choice : Nat)

namespace Ticket

variable (now : Int) (table : JobTable) (ticket : Ticket)

/-- A ticket whose row has been put back, or could not be; its success is reported. -/
def settle (success : Bool) (statement : Statement) : Outcome where
  stage := .settled
  statement := statement
  deeds := [.duration success]

/-- Call the task of a job. -/
def execute (loaded : Option JobRow) (statement : Statement) : Outcome where
  stage :=
    if ticket.name = MAINTENANCE_JOB_NAME then .maintaining loaded .pending
    else .executing loaded
  statement := statement
  deeds := [.called]

/-- A consumer calls a task, which may be wrapped by the timestamp helper.  Its message is an object
whatever the data of the job. -/
def consume : Outcome :=
  if ticket.name ∈ fleet.settings.wrapped then { stage := .lookingUp }
  else ticket.execute none .read

/-- A tick calls the timestamp helper, which throws in the Prisma scheduler if there is no data to
look for a context in. -/
def help : Outcome :=
  match fleet.package, ticket.data with
  | .prisma, .null => { stage := .settled }
  | _, _ => { stage := .lookingUp }

/-- A tick comes to a job: it calls its task, publishes a message or finds no task. -/
def launch : Outcome :=
  if ticket.name = MAINTENANCE_JOB_NAME then ticket.help fleet
  else if ticket.name ∉ fleet.settings.tasks then { stage := .settled }
  else if ticket.name ∈ fleet.settings.published then { stage := .sent }
  else if ticket.name ∈ fleet.settings.wrapped then ticket.help fleet
  else ticket.execute none .read

/-- Put back a job whose row is known: a job without a repeat interval is deleted, the next run of
any other one is computed. -/
def dispose (loaded row : JobRow) : Stage :=
  if row.oneOff then .deleting loaded
  else
    match computeNextRun fleet.library fleet.moment now row.repeatInterval row.timezone with
    | .ok nextRunAt => .storing loaded nextRunAt
    | .error _ => .failing { values := loaded }

/-- The task of a job has succeeded. -/
def finish : Option JobRow → Stage
  | none => .settled
  | some loaded =>
      match fleet.package with
      | .prisma => .finishing loaded
      | .sequelize => dispose fleet now loaded loaded

/-- The task of a job has failed. -/
def fail : Option JobRow → Stage
  | none => .settled
  | some loaded => .failing { values := loaded }

/-- A maintenance pass continues or ends; it never fails. -/
def proceed (loaded : Option JobRow) (statement : Statement)
    (next : Option Progress × List Notice) : Outcome where
  stage := next.1.elim (finish fleet now loaded) (.maintaining loaded)
  statement := statement
  deeds := next.2.map .emitted

/-- The database carries out the pending statement; a number tells which of several resets or how
long a delay is meant. -/
def answered (choice : Nat) : Option Outcome :=
  match ticket.stage with
  | .lookingUp =>
      match fleet.lookUp table ticket.job with
      | none => some (ticket.execute none .read)
      | some row => some { stage := .starting row }
  | .starting loaded =>
      let accepted : RowUpdate := { acceptedAt := some now }
      match fleet.update table ticket.job { values := loaded } accepted with
      | none => some { stage := .settled }
      | some statement => some (ticket.execute (some (fleet.saved loaded accepted)) statement)
  | .maintaining loaded progress =>
      (progress.next fleet now table choice).map
        (proceed fleet now loaded (progress.statement fleet now choice))
  | .finishing loaded =>
      match fleet.lookUp table ticket.job with
      | none => some (settle true .read)
      | some row => some { stage := dispose fleet now loaded row }
  | .deleting loaded =>
      let statement := Statement.delete (fleet.addresses ticket.job)
      match fleet.package with
      | .prisma => some { stage := .failing { values := loaded }, statement := statement }
      | .sequelize => some (settle true statement)
  | .storing loaded nextRunAt =>
      match fleet.update table ticket.job { values := loaded } (finished now nextRunAt) with
      | none => some { stage := .failing { values := loaded } }
      | some statement => some (settle true statement)
  | .failing loaded =>
      match fleet.package with
      | .prisma =>
          match fleet.lookUp table ticket.job with
          | none => some (settle false .read)
          | some found =>
              some { stage := if fleet.retries found then .requeueing found else .counting found }
      | .sequelize =>
          if choice ≤ fleet.retryDelay loaded.values then
            (fleet.update table ticket.job loaded
              (if fleet.retries loaded.values then retried now choice loaded.values
                else failed now loaded.values)).map (settle false)
          else none
  | .requeueing found =>
      if choice ≤ fleet.retryDelay found then
        match fleet.update table ticket.job { values := found } (retried now choice found) with
        | none => some (settle false .read)
        | some statement => some { stage := .counting found, statement := statement }
      else none
  | .counting found =>
      some (settle false
        (.write (fun row => row.key = jobKey ticket.job found.nameSpace) (failed now found)))
  | .waiting | .sent | .executing _ | .settled => none

/-- The database refuses the pending statement. -/
def refused (choice : Nat) : Option Outcome :=
  match ticket.stage with
  | .lookingUp | .starting _ => some { stage := .settled }
  | .maintaining loaded progress =>
      (progress.refused choice).map (proceed fleet now loaded .read)
  | .finishing loaded | .deleting loaded => some { stage := .failing { values := loaded } }
  | .storing loaded nextRunAt =>
      match fleet.package with
      | .prisma => some { stage := .failing { values := loaded } }
      | .sequelize =>
          some { stage := .failing ((JobInstance.mk loaded {}).assign (finished now nextRunAt)) }
  | .failing _ | .requeueing _ | .counting _ => some (settle false .read)
  | .waiting | .sent | .executing _ | .settled => none

/-- What follows when a ticket is answered, if it can be answered so. -/
def answer : Answer → Option Outcome
  | .begun =>
      match ticket.stage with
      | .waiting => some (ticket.launch fleet)
      | _ => none
  | .delivered _ =>
      match ticket.stage with
      | .sent => some (ticket.consume fleet)
      | _ => none
  | .completed succeeded =>
      match ticket.stage with
      | .executing loaded =>
          some { stage := if succeeded then finish fleet now loaded else fail loaded }
      | _ => none
  | .done choice => ticket.answered fleet now table choice
  | .refused choice => ticket.refused fleet now choice

/-- The ticket at its next stage; a message is handled by the process that receives it. -/
def advanced (answer : Answer) (stage : Stage) : Ticket :=
  { ticket with
    process :=
      match answer with
      | .delivered process => process
      | _ => ticket.process
    stage := stage }

end Ticket

/-! ## Runs -/

/-- The clock, the table, the tickets, how many processes are about to create the maintenance job,
and what has been observed. -/
structure State where
  now : Int
  table : JobTable
  tickets : List Ticket
  creating : Nat
  log : List Entry

/-- The state in which no tick has taken place. -/
def State.initial (now : Int) (table : JobTable) : State where
  now := now
  table := table
  tickets := []
  creating := 0
  log := []

/-- What can happen next. -/
inductive Event
  | elapse (duration : Nat)
  | enqueue (process : Nat) (ids : List String)
  | act (index : Nat) (answer : Answer)
  | crash (process : Nat)
  | findFirst
  | create (id : String)
  | abandon

/-- The rows that a tick may enqueue. -/
def enqueueable (now : Int) (row : JobRow) : Bool :=
  due now row && decide (row.name ∈ fleet.settings.allJobs) && fleet.owns row

/-- The maintenance job as it is created. -/
def createdJob (now : Int) (id : String) : JobRow where
  id := id
  nameSpace := none
  queued := false
  nextRunAt := some now
  lastFinishedAt := none
  failures := 0
  failedAt := none
  repeatInterval := some "FREQ=MINUTELY;INTERVAL=1"
  timezone := some "UTC"
  name := MAINTENANCE_JOB_NAME
  data := .obj []
  lastRunAt := none
  acceptedAt := none
  deletedAt := none

namespace State

variable (state : State)

/-- Whether a process has dealt with the first tickets, as far as they are its own. -/
def idle (process count : Nat) : Bool :=
  (state.tickets.take count).all fun ticket => ticket.process ≠ process || !ticket.stage.busy

/-- The tickets of some rows. -/
def enqueued (process : Nat) (ids : List String) : List Ticket :=
  ids.filterMap fun id =>
    (state.table.find id).map fun row => ⟨process, id, row.name, row.data, .waiting⟩

/-- A ticket has been answered. -/
def advance (index : Nat) (ticket : Ticket) (answer : Answer) (outcome : Outcome) : State :=
  { state with
    table := outcome.statement.apply state.table
    tickets := state.tickets.set index (ticket.advanced answer outcome.stage)
    log := state.log ++ outcome.deeds.map (Entry.mk ticket.job) }

/-- A ticket whose process has crashed; a message that is under way is not lost. -/
def crashed (process : Nat) (ticket : Ticket) : Ticket :=
  match ticket.stage with
  | .sent => ticket
  | _ => if ticket.process = process then { ticket with stage := .settled } else ticket

end State

/-- The next state, if the event can happen. -/
def step (state : State) : Event → Option State
  | .elapse duration => some { state with now := state.now + duration }
  | .enqueue process ids =>
      if state.idle process state.tickets.length ∧ ids.Nodup ∧
          ids.length ≤ fleet.settings.enqueueLimit ∧
          ids.all (fun id => (state.table.find id).any (fleet.enqueueable state.now)) then
        some { state with
          table := state.table.write (fun row => row.id ∈ ids)
            { queued := some true, lastRunAt := some state.now }
          tickets := state.tickets ++ state.enqueued process ids }
      else none
  | .act index answer =>
      match state.tickets[index]? with
      | none => none
      | some ticket =>
          match answer, state.idle ticket.process index with
          | .begun, false => none
          | _, _ =>
              (ticket.answer fleet state.now state.table answer).map
                (state.advance index ticket answer)
  | .crash process => some { state with tickets := state.tickets.map (State.crashed process) }
  | .findFirst =>
      if (state.table.select fun row => row.name = MAINTENANCE_JOB_NAME).isEmpty then
        some { state with creating := state.creating + 1 }
      else some state
  | .create id =>
      if 0 < state.creating ∧ (state.table.find id).isNone ∧
          state.tickets.all (fun ticket => ticket.job ≠ id) then
        some { state with
          creating := state.creating - 1
          table := state.table.insert (createdJob state.now id) }
      else none
  | .abandon =>
      if 0 < state.creating then some { state with creating := state.creating - 1 } else none

/-- The processes of a fleet and their table. -/
def system : System State Event where
  step := step fleet

/-! ## What a step can do -/

/-- What becomes of a row when a statement is carried out. -/
def Statement.onRow : Statement → JobRow → Option JobRow
  | .read, row => some row
  | .write condition update, row => some (if condition row then update.apply row else row)
  | .delete condition, row => if condition row then none else some row

theorem Statement.find_apply (statement : Statement) (table : JobTable) (id : String) :
    (statement.apply table).find id = (table.find id).bind statement.onRow := by
  cases statement with
  | read => cases found : table.find id <;> exact found
  | write condition update =>
      refine (JobTable.find_write condition update id).trans ?_
      cases table.find id <;> rfl
  | delete condition =>
      refine (JobTable.find_delete condition id).trans ?_
      cases table.find id with
      | none => rfl
      | some row => by_cases selected : condition row <;> simp [Statement.onRow, selected]

/-- A row that is not deleted only gets new values in its columns. -/
theorem Statement.onRow_apply {statement : Statement} {row after : JobRow}
    (becomes : statement.onRow row = some after) :
    ∃ update : RowUpdate, after = update.apply row := by
  cases statement with
  | read => exact ⟨{}, (Option.some.inj becomes).symm⟩
  | write condition update =>
      obtain rfl := Option.some.inj becomes
      by_cases selected : condition row = true
      · exact ⟨update, if_pos selected⟩
      · exact ⟨{}, if_neg selected⟩
  | delete condition =>
      simp only [Statement.onRow] at becomes
      split at becomes
      · cases becomes
      · exact ⟨{}, (Option.some.inj becomes).symm⟩

/-- No statement of a ticket adds rows. -/
theorem Statement.mem_apply {statement : Statement} {table : JobTable} {after : JobRow}
    (member : after ∈ (statement.apply table).rows) :
    ∃ row ∈ table.rows, ∃ update : RowUpdate, after = update.apply row := by
  have located := JobTable.find_of_mem member
  rw [find_apply] at located
  obtain ⟨row, found, becomes⟩ := Option.bind_eq_some_iff.mp located
  exact ⟨row, (JobTable.mem_of_find found).1, onRow_apply becomes⟩

/-- A statement leaves a row alone that it does not select. -/
theorem Statement.onRow_of_not_selects {statement : Statement} {row : JobRow}
    (left : statement.selects row = false) : statement.onRow row = some row := by
  cases statement with
  | read => rfl
  | write condition update =>
      have unselected : condition row = false := left
      simp [Statement.onRow, unselected]
  | delete condition =>
      have unselected : condition row = false := left
      simp [Statement.onRow, unselected]

/-- The statements of a ticket that is not in a maintenance pass are about the row of its job. -/
def Ticket.maintains (now : Int) (ticket : Ticket) (answer : Answer) (row : JobRow) : Bool :=
  match ticket.stage, answer with
  | .maintaining _ progress, .done choice => (progress.statement fleet now choice).selects row
  | _, _ => false

variable {fleet}

theorem addresses_id {id : String} {row : JobRow} (addressed : fleet.addresses id row = true) :
    row.id = id := by
  rw [addresses] at addressed
  split at addressed
  · exact of_decide_eq_true ((Bool.and_eq_true _ _).mp addressed).1
  · exact of_decide_eq_true addressed

theorem lookUp_write {table : JobTable} {id : String} {row : JobRow} {update : RowUpdate}
    (present : fleet.lookUp table id = some row) :
    fleet.lookUp (table.write (fleet.addresses id) update) id = some (update.apply row) := by
  obtain ⟨found, addressed⟩ := Option.filter_eq_some_iff.mp present
  have kept : fleet.addresses id (update.apply row) = fleet.addresses id row := rfl
  rw [lookUp, JobTable.find_write, found, Option.map_some, if_pos addressed,
    Option.filter_some, kept, if_pos addressed]

theorem lookUp_delete (table : JobTable) (id : String) :
    fleet.lookUp (table.delete (fleet.addresses id)) id = none := by
  rw [lookUp, JobTable.find_delete]
  cases table.find id with
  | none => rfl
  | some row => simp

theorem update_eq {table : JobTable} {id : String} {loaded : JobInstance} {change : RowUpdate}
    {statement : Statement} (updated : fleet.update table id loaded change = some statement) :
    statement = .write (fleet.addresses id) (fleet.columns loaded change) := by
  rw [update] at updated
  split at updated
  · cases updated
  · exact (Option.some.inj updated).symm

/-- An update throws only where there is no row. -/
theorem lookUp_of_update_eq_none {table : JobTable} {id : String} {loaded : JobInstance}
    {change : RowUpdate} (refused : fleet.update table id loaded change = none) :
    fleet.lookUp table id = none := by
  rw [update] at refused
  split at refused
  · rename_i missing
    exact missing.2
  · cases refused

namespace Ticket

variable {now : Int} {table : JobTable} {ticket : Ticket} {outcome : Outcome} {choice : Nat}

@[simp] theorem consume_statement : (ticket.consume fleet).statement = .read := by
  rw [consume]
  split <;> rfl

/-- The stages to which a call of the timestamp helper leads. -/
theorem help_cases :
    ticket.help fleet = { stage := .lookingUp } ∨
      (fleet.package = .prisma ∧ ticket.data = .null ∧
        ticket.help fleet = { stage := .settled }) := by
  rw [help]
  split
  · rename_i package data
    exact Or.inr ⟨package, data, rfl⟩
  · exact Or.inl rfl

@[simp] theorem launch_statement : (ticket.launch fleet).statement = .read := by
  have helped : (ticket.help fleet).statement = .read := by
    rcases help_cases with same | ⟨-, -, same⟩ <;> rw [same]
  rw [launch]
  split
  · exact helped
  · split
    · rfl
    · split
      · rfl
      · split
        · exact helped
        · rfl

section Stages

variable {motive : Stage → Prop}

/-- The stages at which the task of a job is called. -/
theorem execute_induction {loaded : Option JobRow} {statement : Statement}
    (maintaining : ticket.name = MAINTENANCE_JOB_NAME → motive (.maintaining loaded .pending))
    (executing : motive (.executing loaded)) : motive (ticket.execute loaded statement).stage := by
  rw [execute]
  dsimp only
  split
  · rename_i named
    exact maintaining named
  · exact executing

/-- The stages to which a message leads that is delivered. -/
theorem consume_induction (lookingUp : motive .lookingUp)
    (called : motive (ticket.execute none .read).stage) : motive (ticket.consume fleet).stage := by
  rw [consume]
  split
  · exact lookingUp
  · exact called

/-- The stages to which a tick leads. -/
theorem launch_induction (lookingUp : motive .lookingUp) (settled : motive .settled)
    (sent : motive .sent)
    (called : ticket.name ≠ MAINTENANCE_JOB_NAME → motive (ticket.execute none .read).stage) :
    motive (ticket.launch fleet).stage := by
  have helped : motive (ticket.help fleet).stage := by
    rcases help_cases with same | ⟨-, -, same⟩
    · rw [same]
      exact lookingUp
    · rw [same]
      exact settled
  rw [launch]
  split
  · exact helped
  · rename_i other
    split
    · exact settled
    · split
      · exact sent
      · split
        · exact helped
        · exact called other

/-- The stages at which a row is put back. -/
theorem dispose_induction {loaded row : JobRow} (deleting : motive (.deleting loaded))
    (storing : ∀ nextRunAt, motive (.storing loaded nextRunAt))
    (failing : motive (.failing { values := loaded })) :
    motive (dispose fleet now loaded row) := by
  rw [dispose]
  split
  · exact deleting
  · split
    · exact storing _
    · exact failing

/-- The stages to which a successful task leads. -/
theorem finish_induction {loaded : Option JobRow} (settled : loaded = none → motive .settled)
    (finishing : ∀ row ∈ loaded, motive (.finishing row))
    (deleting : ∀ row ∈ loaded, motive (.deleting row))
    (storing : ∀ row ∈ loaded, ∀ nextRunAt, motive (.storing row nextRunAt))
    (failing : ∀ row ∈ loaded, motive (.failing { values := row })) :
    motive (finish fleet now loaded) := by
  cases loaded with
  | none => exact settled rfl
  | some row =>
      rw [finish]
      split
      · exact finishing row rfl
      · exact dispose_induction (deleting row rfl) (storing row rfl) (failing row rfl)

end Stages

/-- A refused statement changes nothing. -/
theorem refused_statement (refused : ticket.refused fleet now choice = some outcome) :
    outcome.statement = .read := by
  rw [Ticket.refused.eq_def] at refused
  split at refused
  case _ => obtain rfl := Option.some.inj refused; rfl
  case _ => obtain rfl := Option.some.inj refused; rfl
  case _ =>
    obtain ⟨next, -, rfl⟩ := Option.map_eq_some_iff.mp refused
    rfl
  case _ => obtain rfl := Option.some.inj refused; rfl
  case _ => obtain rfl := Option.some.inj refused; rfl
  case _ => split at refused <;> obtain rfl := Option.some.inj refused <;> rfl
  case _ => obtain rfl := Option.some.inj refused; rfl
  case _ => obtain rfl := Option.some.inj refused; rfl
  case _ => obtain rfl := Option.some.inj refused; rfl
  all_goals cases refused

theorem answer_begun : ticket.answer fleet now table .begun = some outcome ↔
    ticket.stage = .waiting ∧ outcome = ticket.launch fleet := by
  simp only [answer]
  split
  · rename_i stage
    simp only [stage, Option.some.injEq, eq_comm, true_and]
  · rename_i stage
    exact iff_of_false (by simp) fun waiting => stage waiting.1

theorem answer_delivered {process : Nat} :
    ticket.answer fleet now table (.delivered process) = some outcome ↔
      ticket.stage = .sent ∧ outcome = ticket.consume fleet := by
  simp only [answer]
  split
  · rename_i stage
    simp only [stage, Option.some.injEq, eq_comm, true_and]
  · rename_i stage
    exact iff_of_false (by simp) fun sent => stage sent.1

theorem answer_completed {succeeded : Bool} :
    ticket.answer fleet now table (.completed succeeded) = some outcome ↔
      ∃ loaded, ticket.stage = .executing loaded ∧
        outcome = { stage := if succeeded then finish fleet now loaded else fail loaded } := by
  simp only [answer]
  split
  · rename_i loaded stage
    simp only [stage, Option.some.injEq, eq_comm, Stage.executing.injEq, exists_eq_left']
  · rename_i stage
    exact iff_of_false (by simp) fun ⟨loaded, executing, _⟩ => stage loaded executing

section Reactions

variable (fleet now table ticket)

/-- What a ticket can do when it is answered, one case for each way through the timestamp helper. -/
inductive Reaction : Answer → Outcome → Prop
  | launched (stage : ticket.stage = .waiting) : Reaction .begun (ticket.launch fleet)
  | consumed {process : Nat} (stage : ticket.stage = .sent) :
      Reaction (.delivered process) (ticket.consume fleet)
  | succeeded {loaded : Option JobRow} (stage : ticket.stage = .executing loaded) :
      Reaction (.completed true) { stage := finish fleet now loaded }
  | failed {loaded : Option JobRow} (stage : ticket.stage = .executing loaded) :
      Reaction (.completed false) { stage := fail loaded }
  | unwrapped {choice : Nat} (stage : ticket.stage = .lookingUp)
      (missing : fleet.lookUp table ticket.job = none) :
      Reaction (.done choice) (ticket.execute none .read)
  | found {choice : Nat} {row : JobRow} (stage : ticket.stage = .lookingUp)
      (present : fleet.lookUp table ticket.job = some row) :
      Reaction (.done choice) { stage := .starting row }
  | unaccepted {choice : Nat} {loaded : JobRow} (stage : ticket.stage = .starting loaded)
      (missing : fleet.lookUp table ticket.job = none) :
      Reaction (.done choice) { stage := .settled }
  | accepted {choice : Nat} {loaded : JobRow} (stage : ticket.stage = .starting loaded) :
      Reaction (.done choice)
        (ticket.execute (some (fleet.saved loaded { acceptedAt := some now }))
          (.write (fleet.addresses ticket.job)
            (fleet.columns { values := loaded } { acceptedAt := some now })))
  | continued {choice : Nat} {loaded : Option JobRow} {progress : Progress}
      {next : Option Progress × List Notice} (stage : ticket.stage = .maintaining loaded progress)
      (continues : progress.next fleet now table choice = some next) :
      Reaction (.done choice)
        (proceed fleet now loaded (progress.statement fleet now choice) next)
  | vanished {choice : Nat} {loaded : JobRow} (stage : ticket.stage = .finishing loaded)
      (missing : fleet.lookUp table ticket.job = none) :
      Reaction (.done choice) (settle true .read)
  | disposed {choice : Nat} {loaded row : JobRow} (stage : ticket.stage = .finishing loaded)
      (present : fleet.lookUp table ticket.job = some row) :
      Reaction (.done choice) { stage := dispose fleet now loaded row }
  | deleted {choice : Nat} {loaded : JobRow} (stage : ticket.stage = .deleting loaded)
      (prisma : fleet.package = .prisma) :
      Reaction (.done choice)
        { stage := .failing { values := loaded }
          statement := .delete (fleet.addresses ticket.job) }
  | destroyed {choice : Nat} {loaded : JobRow} (stage : ticket.stage = .deleting loaded)
      (sequelize : fleet.package = .sequelize) :
      Reaction (.done choice) (settle true (.delete (fleet.addresses ticket.job)))
  | unstored {choice : Nat} {loaded : JobRow} {nextRunAt : Option Int}
      (stage : ticket.stage = .storing loaded nextRunAt)
      (missing : fleet.lookUp table ticket.job = none) :
      Reaction (.done choice) { stage := .failing { values := loaded } }
  | stored {choice : Nat} {loaded : JobRow} {nextRunAt : Option Int}
      (stage : ticket.stage = .storing loaded nextRunAt) :
      Reaction (.done choice) (settle true (.write (fleet.addresses ticket.job)
        (fleet.columns { values := loaded } (finished now nextRunAt))))
  | forgotten {choice : Nat} {loaded : JobInstance} (stage : ticket.stage = .failing loaded)
      (prisma : fleet.package = .prisma) (missing : fleet.lookUp table ticket.job = none) :
      Reaction (.done choice) (settle false .read)
  | reread {choice : Nat} {loaded : JobInstance} {row : JobRow}
      (stage : ticket.stage = .failing loaded) (prisma : fleet.package = .prisma)
      (present : fleet.lookUp table ticket.job = some row) :
      Reaction (.done choice)
        { stage := if fleet.retries row then .requeueing row else .counting row }
  | saved {choice : Nat} {loaded : JobInstance} (stage : ticket.stage = .failing loaded)
      (sequelize : fleet.package = .sequelize) (delay : choice ≤ fleet.retryDelay loaded.values) :
      Reaction (.done choice) (settle false (.write (fleet.addresses ticket.job)
        (fleet.columns loaded (if fleet.retries loaded.values then retried now choice loaded.values
          else Fleet.failed now loaded.values))))
  | unretried {choice : Nat} {row : JobRow} (stage : ticket.stage = .requeueing row)
      (missing : fleet.lookUp table ticket.job = none) :
      Reaction (.done choice) (settle false .read)
  | requeued {choice : Nat} {row : JobRow} (stage : ticket.stage = .requeueing row)
      (delay : choice ≤ fleet.retryDelay row) :
      Reaction (.done choice)
        { stage := .counting row
          statement := .write (fleet.addresses ticket.job)
            (fleet.columns { values := row } (retried now choice row)) }
  | counted {choice : Nat} {row : JobRow} (stage : ticket.stage = .counting row) :
      Reaction (.done choice) (settle false
        (.write (fun other => other.key = jobKey ticket.job row.nameSpace) (Fleet.failed now row)))
  | thrown {choice : Nat}
      (stage : ticket.stage = .lookingUp ∨ ∃ loaded, ticket.stage = .starting loaded) :
      Reaction (.refused choice) { stage := .settled }
  | interrupted {choice : Nat} {loaded : Option JobRow} {progress : Progress}
      {next : Option Progress × List Notice} (stage : ticket.stage = .maintaining loaded progress)
      (continues : progress.refused choice = some next) :
      Reaction (.refused choice) (proceed fleet now loaded .read next)
  | unfinished {choice : Nat} {loaded : JobRow}
      (stage : ticket.stage = .finishing loaded ∨ ticket.stage = .deleting loaded ∨
        fleet.package = .prisma ∧ ∃ nextRunAt, ticket.stage = .storing loaded nextRunAt) :
      Reaction (.refused choice) { stage := .failing { values := loaded } }
  | unsaved {choice : Nat} {loaded : JobRow} {nextRunAt : Option Int}
      (stage : ticket.stage = .storing loaded nextRunAt) (sequelize : fleet.package = .sequelize) :
      Reaction (.refused choice)
        { stage := .failing ((JobInstance.mk loaded {}).assign (finished now nextRunAt)) }
  | uncounted {choice : Nat}
      (stage : (∃ loaded, ticket.stage = .failing loaded) ∨
        (∃ row, ticket.stage = .requeueing row) ∨ ∃ row, ticket.stage = .counting row) :
      Reaction (.refused choice) (settle false .read)

end Reactions

theorem reaction_answered (answered : ticket.answered fleet now table choice = some outcome) :
    Reaction fleet now table ticket (.done choice) outcome := by
  rcases stage : ticket.stage with _ | _ | _ | loaded | _ | ⟨loaded, progress⟩ | loaded |
    loaded | ⟨loaded, nextRunAt⟩ | loaded | row | row | _
  all_goals simp only [Ticket.answered, stage] at answered
  case lookingUp =>
    split at answered <;> obtain rfl := Option.some.inj answered
    · rename_i missing
      exact .unwrapped stage missing
    · rename_i row present
      exact .found stage present
  case starting =>
    split at answered <;> obtain rfl := Option.some.inj answered
    · rename_i refused
      exact .unaccepted stage (lookUp_of_update_eq_none refused)
    · rename_i statement updated
      rw [update_eq updated]
      exact .accepted stage
  case maintaining =>
    obtain ⟨next, continues, rfl⟩ := Option.map_eq_some_iff.mp answered
    exact .continued stage continues
  case finishing =>
    split at answered <;> obtain rfl := Option.some.inj answered
    · rename_i missing
      exact .vanished stage missing
    · rename_i row present
      exact .disposed stage present
  case deleting =>
    split at answered <;> obtain rfl := Option.some.inj answered
    · rename_i prisma
      exact .deleted stage prisma
    · rename_i sequelize
      exact .destroyed stage sequelize
  case storing =>
    split at answered <;> obtain rfl := Option.some.inj answered
    · rename_i refused
      exact .unstored stage (lookUp_of_update_eq_none refused)
    · rename_i statement updated
      rw [update_eq updated]
      exact .stored stage
  case failing =>
    split at answered
    · rename_i prisma
      split at answered <;> obtain rfl := Option.some.inj answered
      · rename_i missing
        exact .forgotten stage prisma missing
      · rename_i row present
        exact .reread stage prisma present
    · rename_i sequelize
      split at answered
      · rename_i delay
        obtain ⟨statement, updated, rfl⟩ := Option.map_eq_some_iff.mp answered
        rw [update_eq updated]
        exact .saved stage sequelize delay
      · cases answered
  case requeueing =>
    split at answered
    · rename_i delay
      split at answered <;> obtain rfl := Option.some.inj answered
      · rename_i refused
        exact .unretried stage (lookUp_of_update_eq_none refused)
      · rename_i statement updated
        rw [update_eq updated]
        exact .requeued stage delay
    · cases answered
  case counting =>
    obtain rfl := Option.some.inj answered
    exact .counted stage
  all_goals cases answered

theorem reaction_refused (refused : ticket.refused fleet now choice = some outcome) :
    Reaction fleet now table ticket (.refused choice) outcome := by
  rcases stage : ticket.stage with _ | _ | _ | loaded | _ | ⟨loaded, progress⟩ | loaded |
    loaded | ⟨loaded, nextRunAt⟩ | loaded | row | row | _
  all_goals simp only [Ticket.refused, stage] at refused
  case lookingUp =>
    obtain rfl := Option.some.inj refused
    exact .thrown (Or.inl stage)
  case starting =>
    obtain rfl := Option.some.inj refused
    exact .thrown (Or.inr ⟨loaded, stage⟩)
  case maintaining =>
    obtain ⟨next, continues, rfl⟩ := Option.map_eq_some_iff.mp refused
    exact .interrupted stage continues
  case finishing =>
    obtain rfl := Option.some.inj refused
    exact .unfinished (Or.inl stage)
  case deleting =>
    obtain rfl := Option.some.inj refused
    exact .unfinished (Or.inr (Or.inl stage))
  case storing =>
    split at refused <;> obtain rfl := Option.some.inj refused
    · rename_i prisma
      exact .unfinished (Or.inr (Or.inr ⟨prisma, nextRunAt, stage⟩))
    · rename_i sequelize
      exact .unsaved stage sequelize
  case failing =>
    obtain rfl := Option.some.inj refused
    exact .uncounted (Or.inl ⟨loaded, stage⟩)
  case requeueing =>
    obtain rfl := Option.some.inj refused
    exact .uncounted (Or.inr (Or.inl ⟨row, stage⟩))
  case counting =>
    obtain rfl := Option.some.inj refused
    exact .uncounted (Or.inr (Or.inr ⟨row, stage⟩))
  all_goals cases refused

/-- Every answer is one of these reactions. -/
theorem reaction {answer : Answer}
    (answered : ticket.answer fleet now table answer = some outcome) :
    Reaction fleet now table ticket answer outcome := by
  cases answer with
  | begun =>
      obtain ⟨stage, rfl⟩ := answer_begun.mp answered
      exact .launched stage
  | delivered process =>
      obtain ⟨stage, rfl⟩ := answer_delivered.mp answered
      exact .consumed stage
  | completed succeeded =>
      obtain ⟨loaded, stage, rfl⟩ := answer_completed.mp answered
      cases succeeded with
      | true => exact .succeeded stage
      | false => exact .failed stage
  | done choice => exact reaction_answered answered
  | refused choice => exact reaction_refused answered

/-- The statements of the timestamp helper are about the row that it addresses, or about the row
that was found when a failure is counted. -/
theorem answer_addresses {answer : Answer}
    (answered : ticket.answer fleet now table answer = some outcome)
    {row : JobRow} (selected : outcome.statement.selects row = true) :
    fleet.addresses ticket.job row = true ∨
      (∃ found, ticket.stage = .counting found ∧ row.key = jobKey ticket.job found.nameSpace) ∨
      ticket.maintains fleet now answer row = true := by
  cases reaction answered with
  | launched stage =>
      rw [launch_statement] at selected
      cases selected
  | consumed stage =>
      rw [consume_statement] at selected
      cases selected
  | accepted | destroyed | deleted | stored | saved | requeued => exact Or.inl selected
  | counted stage => exact Or.inr (Or.inl ⟨_, stage, of_decide_eq_true selected⟩)
  | continued stage continues =>
      right
      right
      simp only [maintains, stage]
      exact selected
  | _ => cases selected

/-- The statements of the timestamp helper are about the row of its job. -/
theorem answer_selects {answer : Answer}
    (answered : ticket.answer fleet now table answer = some outcome)
    {row : JobRow} (selected : outcome.statement.selects row = true) :
    row.id = ticket.job ∨ ticket.maintains fleet now answer row = true := by
  rcases answer_addresses answered selected with addressed | ⟨found, -, same⟩ | maintains
  · exact Or.inl (addresses_id addressed)
  · exact Or.inl (congrArg Prod.fst same)
  · exact Or.inr maintains

/-- Apart from maintenance, a ticket leaves the rows of other jobs alone. -/
theorem onRow_of_other {answer : Answer} {row : JobRow}
    (answered : ticket.answer fleet now table answer = some outcome) (other : row.id ≠ ticket.job)
    (quiet : ticket.maintains fleet now answer row = false) :
    outcome.statement.onRow row = some row := by
  refine Statement.onRow_of_not_selects (Bool.eq_false_iff.mpr fun selected => ?_)
  rcases answer_selects answered selected with same | maintains
  · exact other same
  · exact Bool.false_ne_true (quiet.symm.trans maintains)

end Ticket

namespace State

variable {state : State} {process : Nat} {ids : List String}

/-- All rows of some identifiers exist, and a tick may enqueue them. -/
def Enqueueable (fleet : Fleet) (state : State) (ids : List String) : Prop :=
  ∀ id ∈ ids, ∃ row ∈ state.table.find id, fleet.enqueueable state.now row = true

/-- There is one ticket for each row. -/
theorem enqueued_jobs (process : Nat) (present : state.Enqueueable fleet ids) :
    (state.enqueued process ids).map (fun ticket => ticket.job) = ids := by
  induction ids with
  | nil => rfl
  | cons id ids induction =>
      obtain ⟨⟨row, found, -⟩, others⟩ := List.forall_mem_cons.mp present
      have tail : (state.enqueued process ids).map (fun ticket => ticket.job) = ids :=
        induction others
      have found : state.table.find id = some row := found
      simp only [enqueued, List.filterMap_cons, found, Option.map_some, List.map_cons]
      exact congrArg _ tail

/-- The ticket of a row waits and has the name and the data of the row. -/
theorem mem_enqueued {ticket : Ticket} (member : ticket ∈ state.enqueued process ids) :
    ticket.process = process ∧ ticket.job ∈ ids ∧ ticket.stage = .waiting ∧
      ∃ row ∈ state.table.find ticket.job, ticket.name = row.name ∧ ticket.data = row.data := by
  obtain ⟨id, listed, made⟩ := List.mem_filterMap.mp member
  obtain ⟨row, found, rfl⟩ := Option.map_eq_some_iff.mp made
  exact ⟨rfl, listed, rfl, row, found, rfl, rfl⟩

end State

/-- A tick enqueues different due rows. -/
theorem step_enqueue {before after : State} {process : Nat} {ids : List String}
    (moved : step fleet before (.enqueue process ids) = some after) :
    ids.Nodup ∧ before.Enqueueable fleet ids ∧
      after = { before with
        table := before.table.write (fun row => row.id ∈ ids)
          { queued := some true, lastRunAt := some before.now }
        tickets := before.tickets ++ before.enqueued process ids } := by
  simp only [step] at moved
  split at moved
  · rename_i allowed
    refine ⟨allowed.2.1, fun id listed => ?_, (Option.some.inj moved).symm⟩
    have due := List.all_eq_true.mp allowed.2.2.2 id listed
    exact (Option.any_eq_true _ _).mp due
  · cases moved

/-- The maintenance job is created under an identifier that has never been used. -/
theorem step_create {before after : State} {id : String}
    (moved : step fleet before (.create id) = some after) :
    before.table.find id = none ∧ (∀ ticket ∈ before.tickets, ticket.job ≠ id) ∧
      after = { before with
        creating := before.creating - 1
        table := before.table.insert (createdJob before.now id) } := by
  simp only [step] at moved
  split at moved
  · rename_i allowed
    refine ⟨Option.isNone_iff_eq_none.mp allowed.2.1, fun ticket member => ?_,
      (Option.some.inj moved).symm⟩
    exact of_decide_eq_true (List.all_eq_true.mp allowed.2.2 ticket member)
  · cases moved

/-- An answered ticket is one of the list, and it was its turn if a tick has come to it. -/
theorem step_act {before after : State} {index : Nat} {answer : Answer}
    (moved : step fleet before (.act index answer) = some after) :
    ∃ ticket outcome, before.tickets[index]? = some ticket ∧
      (answer = .begun → before.idle ticket.process index = true) ∧
      ticket.answer fleet before.now before.table answer = some outcome ∧
      after = before.advance index ticket answer outcome := by
  simp only [step] at moved
  split at moved
  · cases moved
  · rename_i ticket found
    split at moved
    · cases moved
    · rename_i turn
      obtain ⟨outcome, answered, same⟩ := Option.map_eq_some_iff.mp moved
      refine ⟨ticket, outcome, found, ?_, answered, same.symm⟩
      rintro rfl
      cases idle : before.idle ticket.process index with
      | true => rfl
      | false => exact absurd idle (turn rfl)

/-- A ticket may be answered when it is its turn. -/
theorem step_act_eq {state : State} {index : Nat} {ticket : Ticket} {answer : Answer}
    (found : state.tickets[index]? = some ticket)
    (turn : answer = .begun → state.idle ticket.process index = true) :
    step fleet state (.act index answer) =
      (ticket.answer fleet state.now state.table answer).map
        (state.advance index ticket answer) := by
  simp only [step, found]
  split
  · rename_i busy
    rw [turn rfl] at busy
    cases busy
  · rfl

/-- The row of a job after an answer. -/
theorem find_advance {state : State} {index : Nat} {ticket : Ticket} {answer : Answer}
    {outcome : Outcome} (id : String) :
    (state.advance index ticket answer outcome).table.find id =
      (state.table.find id).bind outcome.statement.onRow :=
  Statement.find_apply outcome.statement state.table id

/-- The tickets after an answer: the answered one, and all others as they were. -/
theorem mem_advance {state : State} {index : Nat} {ticket later : Ticket} {answer : Answer}
    {outcome : Outcome} (found : state.tickets[index]? = some ticket)
    (member : later ∈ (state.advance index ticket answer outcome).tickets) :
    later = ticket.advanced answer outcome.stage ∨
      ∃ position, position ≠ index ∧ state.tickets[position]? = some later := by
  obtain ⟨position, isLater⟩ := List.getElem?_of_mem member
  by_cases here : position = index
  · subst here
    have bound := (List.getElem?_eq_some_iff.mp found).1
    rw [State.advance, List.getElem?_set_self bound] at isLater
    exact Or.inl (Option.some.inj isLater).symm
  · rw [State.advance, List.getElem?_set_ne (Ne.symm here)] at isLater
    exact Or.inr ⟨position, here, isLater⟩

/-- A crash settles the tickets of its process and leaves all others as they are. -/
theorem crashed_cases (process : Nat) (ticket : Ticket) :
    State.crashed process ticket = ticket ∨ ticket.process = process ∧
      State.crashed process ticket = { ticket with stage := .settled } := by
  rw [State.crashed]
  split
  · exact Or.inl rfl
  · split
    · rename_i own
      exact Or.inr ⟨own, rfl⟩
    · exact Or.inl rfl

/-- Looking for the maintenance job changes at most how many processes are about to create it. -/
theorem step_findFirst {before after : State} (moved : step fleet before .findFirst = some after) :
    ∃ creating, after = { before with creating := creating } := by
  simp only [step] at moved
  split at moved <;> obtain rfl := Option.some.inj moved <;> exact ⟨_, rfl⟩

theorem step_abandon {before after : State} (moved : step fleet before .abandon = some after) :
    ∃ creating, after = { before with creating := creating } := by
  simp only [step] at moved
  split at moved
  · obtain rfl := Option.some.inj moved
    exact ⟨_, rfl⟩
  · cases moved

end Fleet

end Steveo.Scheduler
