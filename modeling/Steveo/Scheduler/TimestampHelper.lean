import Steveo.Library.Json
import Steveo.Scheduler.Fleet

/-!
# The timestamp helper

This file models the function that both packages wrap around a task: it looks up the row of the
job, writes that the job starts, awaits the task and puts the row back.  The database refuses
nothing, and nothing happens between its statements but the task, which may do anything to the
table.  A statement reads the clock when it is carried out.
-/

namespace Steveo.Scheduler

open Steveo.Action

/-- The job that the caller of a task names by its identifier. -/
structure JobContext where
  job : Option String

/-- The arguments of a task. -/
structure TaskArguments where
  context : Option JobContext
  data : Fields

/-- The jobs table and the clock. -/
structure Jobs where
  table : JobTable
  now : Int

/-- A task may throw when it is called; else it returns a promise, with the value to which that
resolves or the message with which it is rejected later. -/
abbrev TaskCallback :=
  Option TaskArguments → Option JobContext → Action Jobs (Except String (Option Json))

/-- Await what a task returns. -/
def awaited (task : TaskCallback) (args : Option TaskArguments) (context : Option JobContext) :
    Action Jobs (Option Json) := do
  let promise ← task args context
  ofExcept promise

/-- What the helper does that others can observe. -/
inductive HelperCall
  | updateFailure (job : String)
  | duration (job : String) (success : Bool)
  deriving DecidableEq

/-- What the helper works on. -/
structure HelperSession extends Jobs where
  calls : List HelperCall

namespace HelperSession

/-- Run code that knows nothing of the helper's calls. -/
def onJobs {α : Type} (action : Action Jobs α) : Action HelperSession α :=
  ExceptT.mk fun session =>
    ((exec action session.toJobs).1, { session with toJobs := (exec action session.toJobs).2 })

/-- Make an observable call. -/
def record (call : HelperCall) : Action HelperSession Unit :=
  modify fun session => { session with calls := session.calls ++ [call] }

/-- Carry out a statement. -/
def perform (statement : Fleet.Statement) : Action HelperSession Unit :=
  modify fun session => { session with table := statement.apply session.table }

end HelperSession

namespace TimestampHelper

open HelperSession

/-- An identifier that is not empty. -/
def filled (id : Option String) : Option String := id.filter (· ≠ "")

/-- The time zone in which a retry is planned.  For an empty name the date library answers with the
name of a zone in place of a date. -/
def requireZone (timezone : Option String) : Action HelperSession Unit :=
  ensure (filled timezone).isSome "TypeError: Cannot read properties of undefined (reading 'add')"

/-- The part of the helper that reports: the outcome is emitted whether the bookkeeping of a
failure returns or throws. -/
def reporting (job : String) (body : Action HelperSession (Option Json))
    (counting : Action HelperSession Unit) : Action HelperSession (Option Json) := do
  match ← attempt body with
  | .ok result =>
      record (.duration job true)
      pure result
  | .error _ =>
      let counted ← attempt counting
      record (.duration job false)
      ofExcept counted
      pure (some .null)

variable (fleet : Fleet) (delay : Nat)

/-- Read the row of a job. -/
def findJob (id : String) : Action HelperSession (Option JobRow) := do
  pure (fleet.lookUp (← get).table id)

/-- The next run of a row. -/
def nextRun (row : JobRow) : Action HelperSession (Option Int) := do
  ofExcept (computeNextRun fleet.library fleet.moment (← get).now row.repeatInterval row.timezone)

namespace Prisma

/-- Change the rows that a statement selects; at least one has to exist. -/
def update (condition : JobRow → Bool) (change : RowUpdate) : Action HelperSession Unit := do
  ensure ((← get).table.rows.any condition)
    "PrismaClientKnownRequestError: Record to update not found."
  perform (.write condition change)

/-- The identifier of the job, from the arguments or else from the context. -/
def jobId (args : Option TaskArguments) (context : Option JobContext) :
    Action HelperSession (Option String) :=
  match args with
  | none => throw "TypeError: Cannot read properties of undefined (reading 'context')"
  | some args =>
      match args.context.bind JobContext.job, context with
      | some id, _ => pure (some id)
      | none, none => throw "TypeError: Cannot read properties of undefined (reading 'job')"
      | none, some context => pure context.job

/-- Write that a job starts. -/
def updateStartTask (id : String) : Action HelperSession Unit :=
  runIf (id != "") do update (fleet.addresses id) { acceptedAt := some (← get).now }

/-- Put a finished job back.  A job without a repeat interval is deleted, and then the computation
of its next run throws. -/
def updateFinishTask (id : String) : Action HelperSession Unit :=
  runIf (id != "") do
    match ← findJob fleet id with
    | none => pure ()
    | some job =>
        runIf job.oneOff (perform (.delete (fleet.addresses id)))
        let nextRunAt ← nextRun fleet job
        update (fleet.addresses id) (Fleet.finished (← get).now nextRunAt)

/-- Count the failure of a job; for a job that is tried again the same number is written twice. -/
def updateFailure (id : String) : Action HelperSession Unit := do
  record (.updateFailure id)
  runIf (id != "") do
    match ← findJob fleet id with
    | none => pure ()
    | some job =>
        runIf (fleet.retries job) do
          requireZone job.timezone
          update (fleet.addresses id) (Fleet.retried (← get).now delay job)
        update (fun row => row.key = jobKey id job.nameSpace) (Fleet.failed (← get).now job)

/-- Await a task that has no row. -/
def unaccounted (task : TaskCallback) (args : Option TaskArguments) (context : Option JobContext) :
    Action HelperSession (Option Json) := do
  match ← attempt (onJobs (awaited task args context)) with
  | .ok result => pure result
  | .error _ => pure (some .null)

/-- A wrapped task. -/
def timestampHelper (task : TaskCallback) (args : Option TaskArguments)
    (context : Option JobContext) : Action HelperSession (Option Json) := do
  match filled (← jobId args context) with
  | none => unaccounted task args context
  | some id =>
      match ← findJob fleet id with
      | none => unaccounted task args context
      | some _ =>
          updateStartTask fleet id
          reporting id
            (do
              let result ← onJobs (awaited task args context)
              updateFinishTask fleet id
              pure result)
            (updateFailure fleet delay id)

end Prisma

namespace Sequelize

/-- Assign columns of a loaded row and save those that changed, if the row exists. -/
def update (job : JobRow) (change : RowUpdate) : Action HelperSession JobRow := do
  perform (.write (fleet.addresses job.id) (fleet.columns { values := job } change))
  pure (change.apply job)

/-- The identifier of the job, from the arguments or else from the context. -/
def jobId (args : Option TaskArguments) (context : Option JobContext) : Option String :=
  ((args.bind TaskArguments.context).bind JobContext.job).or (context.bind JobContext.job)

/-- Write that a job starts. -/
def updateStartTask (job : JobRow) : Action HelperSession JobRow := do
  update fleet job { acceptedAt := some (← get).now }

/-- Put a finished job back, or delete a job without a repeat interval. -/
def updateFinishTask (job : JobRow) : Action HelperSession Unit :=
  if job.oneOff then
    perform (.delete (fleet.addresses job.id))
  else do
    let nextRunAt ← nextRun fleet job
    let _ ← update fleet job (Fleet.finished (← get).now nextRunAt)

/-- Count the failure of a job. -/
def updateFailure (job : JobRow) : Action HelperSession Unit := do
  record (.updateFailure job.id)
  if fleet.retries job then do
    requireZone job.timezone
    let _ ← update fleet job (Fleet.retried (← get).now delay job)
  else do
    let _ ← update fleet job (Fleet.failed (← get).now job)

/-- Call a task that has no row.  What it returns is handed on, so that a later rejection is not
caught. -/
def unaccounted (task : TaskCallback) (args : Option TaskArguments) (context : Option JobContext) :
    Action HelperSession (Option Json) := do
  match ← attempt (onJobs (task args context)) with
  | .ok promise => ofExcept promise
  | .error _ => pure (some .null)

/-- A wrapped task. -/
def timestampHelper (task : TaskCallback) (args : Option TaskArguments)
    (context : Option JobContext) : Action HelperSession (Option Json) :=
  match filled (jobId args context) with
  | none => unaccounted task args context
  | some id => do
      match ← findJob fleet id with
      | none => unaccounted task args context
      | some jobInstance =>
          let started ← updateStartTask fleet jobInstance
          reporting id
            (do
              let result ← onJobs (awaited task args context)
              updateFinishTask fleet started
              pure result)
            (updateFailure fleet delay started)

end Sequelize

/-- A task wrapped by the package of the fleet. -/
def timestampHelper (task : TaskCallback) (args : Option TaskArguments)
    (context : Option JobContext) : Action HelperSession (Option Json) :=
  match fleet.package with
  | .prisma => Prisma.timestampHelper fleet delay task args context
  | .sequelize => Sequelize.timestampHelper fleet delay task args context

/-! ## What the helper is for -/

section Purpose

variable (task : TaskCallback) (args : Option TaskArguments) (context : Option JobContext)
  (jobs : Jobs)

/-- The row of the job that the caller names. -/
def namedRow : Option JobRow :=
  (filled (Sequelize.jobId args context)).bind (fleet.lookUp jobs.table)

/-- The table in which the task is called: the row of its job says that it has started. -/
def begun : Jobs :=
  match namedRow fleet args context jobs with
  | none => jobs
  | some row =>
      { jobs with
        table := jobs.table.write (fleet.addresses row.id)
          (fleet.columns { values := row } { acceptedAt := some jobs.now }) }

/-- The outcome of the task. -/
def outcome : Except String (Option Json) :=
  (exec (awaited task args context) (begun fleet args context jobs)).1

/-- What the task leaves behind. -/
def left : Jobs := (exec (awaited task args context) (begun fleet args context jobs)).2

/-- The value that reports an outcome. -/
def reported : Except String (Option Json) → Option Json
  | .ok value => value
  | .error _ => some .null

/-- Whether an outcome is a success. -/
def succeeded : Except String (Option Json) → Bool
  | .ok _ => true
  | .error _ => false

/-- The events that the helper has emitted. -/
def durations (calls : List HelperCall) : List HelperCall :=
  calls.filter fun call =>
    match call with
    | .duration _ _ => true
    | .updateFailure _ => false

/-- The helper reports the outcome of the task, and to the caller alone if there is no row. -/
structure Reports (run : Except String (Option Json) × HelperSession) : Prop where
  returns : run.1 = .ok (reported (outcome fleet task args context jobs))
  emits : ∀ row, namedRow fleet args context jobs = some row →
    durations run.2.calls = [.duration row.id (succeeded (outcome fleet task args context jobs))]
  deletes : ∀ row, namedRow fleet args context jobs = some row →
    succeeded (outcome fleet task args context jobs) = true → row.oneOff = true →
      fleet.lookUp run.2.table row.id = none
  spares : ∀ row, namedRow fleet args context jobs = some row →
    succeeded (outcome fleet task args context jobs) = true →
      ∀ job, .updateFailure job ∉ run.2.calls

/-- The next run of a row can be computed. -/
def Schedulable (now : Int) (row : JobRow) : Prop :=
  ∃ nextRunAt, computeNextRun fleet.library fleet.moment now row.repeatInterval row.timezone =
    .ok nextRunAt

/-- A row that is tried again has a time zone. -/
def Retriable (row : JobRow) : Prop :=
  fleet.retries row = true → (filled row.timezone).isSome = true

/-- The condition under which the Prisma helper reports the outcome of the task. -/
structure PrismaClear : Prop where
  given : ∃ arguments, args = some arguments ∧
    (arguments.context.bind JobContext.job = none → context ≠ none)
  finishes : ∀ row, namedRow fleet args context jobs = some row →
    succeeded (outcome fleet task args context jobs) = true →
      ∀ found, fleet.lookUp (left fleet task args context jobs).table row.id = some found →
        row.oneOff = false ∧ Schedulable fleet (left fleet task args context jobs).now found
  fails : ∀ row, namedRow fleet args context jobs = some row →
    succeeded (outcome fleet task args context jobs) = false →
      ∀ found, fleet.lookUp (left fleet task args context jobs).table row.id = some found →
        Retriable fleet found

/-- The condition under which the Sequelize helper reports the outcome of the task. -/
structure SequelizeClear : Prop where
  immediate : namedRow fleet args context jobs = none →
    ∀ message, (exec (task args context) jobs).1 ≠ .ok (.error message)
  finishes : ∀ row, namedRow fleet args context jobs = some row →
    succeeded (outcome fleet task args context jobs) = true →
      row.oneOff = true ∨ Schedulable fleet (left fleet task args context jobs).now row
  fails : ∀ row, namedRow fleet args context jobs = some row →
    succeeded (outcome fleet task args context jobs) = false → Retriable fleet row

end Purpose

/-! ## Single steps -/

variable {fleet} {delay} {session : HelperSession} {id : String} {row : JobRow}

theorem exec_onJobs {α : Type} (action : Action Jobs α) (session : HelperSession) :
    exec (onJobs action) session = ((exec action session.toJobs).1,
      { session with toJobs := (exec action session.toJobs).2 }) := rfl

theorem exec_record (call : HelperCall) (session : HelperSession) :
    exec (record call) session = (.ok (), { session with calls := session.calls ++ [call] }) := rfl

theorem exec_perform (statement : Fleet.Statement) (session : HelperSession) :
    exec (perform statement) session =
      (.ok (), { session with table := statement.apply session.table }) := rfl

theorem exec_findJob (id : String) (session : HelperSession) :
    exec (findJob fleet id) session = (.ok (fleet.lookUp session.table id), session) := rfl

theorem exec_nextRun (row : JobRow) (session : HelperSession) :
    exec (nextRun fleet row) session = (computeNextRun fleet.library fleet.moment session.now
      row.repeatInterval row.timezone, session) := by
  rw [nextRun, exec_bind_ok (exec_get session)]
  cases computeNextRun fleet.library fleet.moment session.now row.repeatInterval row.timezone with
  | ok nextRunAt => rfl
  | error message => rfl

theorem filled_eq_some {given : Option String} (kept : filled given = some id) :
    given = some id ∧ id ≠ "" := by
  obtain ⟨same, nonempty⟩ := Option.filter_eq_some_iff.mp kept
  exact ⟨same, of_decide_eq_true nonempty⟩

/-- A row without a repeat interval has no next run. -/
theorem Schedulable.not_oneOff {now : Int} (schedulable : Schedulable fleet now row) :
    row.oneOff = false := by
  obtain ⟨nextRunAt, computed⟩ := schedulable
  rw [Job.oneOff]
  cases interval : row.repeatInterval with
  | none =>
      rw [interval] at computed
      cases computed
  | some recurrence =>
      rw [interval] at computed
      by_cases blank : recurrence = ""
      · subst blank
        cases computed
      · simpa using blank

theorem exec_nextRun_throws {now : Int} (unschedulable : ¬ Schedulable fleet now row) :
    ∃ message, ∀ session : HelperSession, session.now = now →
      exec (nextRun fleet row) session = (.error message, session) := by
  cases computed : computeNextRun fleet.library fleet.moment now row.repeatInterval
    row.timezone with
  | ok nextRunAt => exact absurd ⟨nextRunAt, computed⟩ unschedulable
  | error message =>
      refine ⟨message, fun session same => ?_⟩
      rw [exec_nextRun, same, computed]

theorem Prisma.exec_update {condition : JobRow → Bool} {found : JobRow}
    (member : found ∈ session.table.rows) (selected : condition found = true)
    (change : RowUpdate) :
    exec (update condition change) session =
      (.ok (), { session with table := session.table.write condition change }) := by
  have present : session.table.rows.any condition = true :=
    List.any_eq_true.mpr ⟨found, member, selected⟩
  rw [update, exec_bind_ok (exec_get session), present, exec_bind_ok (exec_ensure_true _ _)]
  rfl

theorem mem_of_lookUp {table : JobTable} (found : fleet.lookUp table id = some row) :
    row ∈ table.rows ∧ fleet.addresses id row = true ∧ row.id = id := by
  obtain ⟨stored, addressed⟩ := Option.filter_eq_some_iff.mp found
  obtain ⟨member, same⟩ := JobTable.mem_of_find stored
  exact ⟨member, addressed, same⟩

/-! ## Reporting -/

theorem exec_reporting_returned {job : String} {body : Action HelperSession (Option Json)}
    {counting : Action HelperSession Unit} {after : HelperSession} {result : Option Json}
    (returned : exec body session = (.ok result, after)) :
    exec (reporting job body counting) session =
      (.ok result, { after with calls := after.calls ++ [.duration job true] }) := by
  rw [reporting, exec_bind_ok (exec_attempt _ _), returned]
  exact exec_bind_ok (exec_record _ _) _

theorem exec_reporting_thrown {job thrown : String} {body : Action HelperSession (Option Json)}
    {counting : Action HelperSession Unit} {after : HelperSession}
    (threw : exec body session = (.error thrown, after)) :
    exec (reporting job body counting) session =
      ((exec counting after).1.map fun _ => some .null,
        { (exec counting after).2 with
          calls := (exec counting after).2.calls ++ [.duration job false] }) := by
  rw [reporting, exec_bind_ok (exec_attempt _ _), threw]
  dsimp only
  rw [exec_bind_ok (exec_attempt _ _), exec_bind_ok (exec_record _ _)]
  rcases exec counting after with ⟨counted, ended⟩
  cases counted with
  | ok _ => rfl
  | error message => rfl

section Specifications

variable {task : TaskCallback} {args : Option TaskArguments} {context : Option JobContext}
  {jobs : Jobs}

/-- Where the task is rejected, its outcome is reported exactly if the failure can be counted. -/
theorem reports_rejected_iff (named : namedRow fleet args context jobs = some row)
    {thrown : String} (rejected : outcome fleet task args context jobs = .error thrown)
    {body : Action HelperSession (Option Json)} {counting : Action HelperSession Unit}
    {after : HelperSession} (threw : exec body session = (.error thrown, after))
    (counted : (exec counting after).2.calls = [.updateFailure row.id]) :
    Reports fleet task args context jobs (exec (reporting row.id body counting) session) ↔
      (exec counting after).1 = .ok () := by
  rw [exec_reporting_thrown threw]
  rcases ran : exec counting after with ⟨done, ended⟩
  rw [ran] at counted
  cases done with
  | error message =>
      exact iff_of_false (fun reports => by cases reports.returns) fun returned => by cases returned
  | ok _ =>
      refine iff_of_true ⟨?_, fun other also => ?_, ?_, ?_⟩ rfl
      · rw [rejected]
        rfl
      · obtain rfl := Option.some.inj (also.symm.trans named)
        rw [rejected, counted]
        rfl
      all_goals
        intro other _ success
        rw [rejected] at success
        cases success

/-- Where the task resolves and its row is put back, its outcome is reported; a row without a
repeat interval has to be gone. -/
theorem reports_resolved_iff (named : namedRow fleet args context jobs = some row)
    {value : Option Json} (resolved : outcome fleet task args context jobs = .ok value)
    {body : Action HelperSession (Option Json)} {counting : Action HelperSession Unit}
    {after : HelperSession} (returned : exec body session = (.ok value, after))
    (silent : after.calls = []) :
    Reports fleet task args context jobs (exec (reporting row.id body counting) session) ↔
      (row.oneOff = true → fleet.lookUp after.table row.id = none) := by
  rw [exec_reporting_returned returned, silent, List.nil_append]
  constructor
  · intro reports
    exact reports.deletes row named (by rw [resolved]; rfl)
  · intro gone
    refine ⟨by rw [resolved]; rfl, ?_, ?_, ?_⟩ <;> intro other also <;>
      obtain rfl := Option.some.inj (also.symm.trans named)
    · rw [resolved]
      rfl
    · exact fun _ => gone
    · simp

/-- Where the task resolves and its row is not put back, a failure is reported. -/
theorem not_reports_of_thrown (named : namedRow fleet args context jobs = some row)
    {value : Option Json} (resolved : outcome fleet task args context jobs = .ok value)
    {body : Action HelperSession (Option Json)} {counting : Action HelperSession Unit}
    {thrown : String} {after : HelperSession} (threw : exec body session = (.error thrown, after))
    (counted : (exec counting after).2.calls = [.updateFailure row.id]) :
    ¬ Reports fleet task args context jobs (exec (reporting row.id body counting) session) := by
  intro reports
  have emits := reports.emits row named
  rw [exec_reporting_thrown threw, resolved, counted] at emits
  cases emits

/-- The part of the helper that reports tells the outcome of the task exactly where the row can be
put back after a success and the failure can be counted else. -/
theorem reports_reporting_iff (named : namedRow fleet args context jobs = some row)
    {finishing counting : Action HelperSession Unit}
    (quiet : ∀ session, (exec finishing session).2.calls = session.calls)
    (counted : ∀ session, (exec counting session).2.calls =
      session.calls ++ [.updateFailure row.id]) :
    Reports fleet task args context jobs
      (exec (reporting row.id
        (do
          let result ← onJobs (awaited task args context)
          finishing
          pure result)
        counting) ⟨begun fleet args context jobs, []⟩) ↔
      (succeeded (outcome fleet task args context jobs) = true →
        (exec finishing ⟨left fleet task args context jobs, []⟩).1 = .ok () ∧
          (row.oneOff = true → fleet.lookUp
            (exec finishing ⟨left fleet task args context jobs, []⟩).2.table row.id = none)) ∧
      (succeeded (outcome fleet task args context jobs) = false →
        (exec counting ⟨left fleet task args context jobs, []⟩).1 = .ok ()) := by
  have awaits : exec (onJobs (awaited task args context)) ⟨begun fleet args context jobs, []⟩ =
      (outcome fleet task args context jobs, ⟨left fleet task args context jobs, []⟩) := rfl
  cases result : outcome fleet task args context jobs with
  | error thrown =>
      rw [result] at awaits
      rw [reports_rejected_iff named result (exec_bind_error awaits _) (counted _)]
      exact ⟨fun counts => ⟨fun success => (by cases success), fun _ => counts⟩,
        fun clear => clear.2 rfl⟩
  | ok value =>
      rw [result] at awaits
      have silent := quiet ⟨left fleet task args context jobs, []⟩
      rcases finished : exec finishing ⟨left fleet task args context jobs, []⟩ with ⟨done, after⟩
      rw [finished] at silent
      cases done with
      | ok _ =>
          have returned : exec (do
              let result ← onJobs (awaited task args context)
              finishing
              pure result) ⟨begun fleet args context jobs, []⟩ = (.ok value, after) := by
            rw [exec_bind_ok awaits, exec_bind_ok finished, exec_pure]
          rw [reports_resolved_iff named result returned silent]
          exact ⟨fun gone => ⟨fun _ => ⟨rfl, gone⟩, fun failure => (by cases failure)⟩,
            fun clear => (clear.1 rfl).2⟩
      | error message =>
          have threw : exec (do
              let result ← onJobs (awaited task args context)
              finishing
              pure result) ⟨begun fleet args context jobs, []⟩ = (.error message, after) := by
            rw [exec_bind_ok awaits, exec_bind_error finished]
          have counts : (exec counting after).2.calls = [.updateFailure row.id] := by
            rw [counted, silent, List.nil_append]
          refine iff_of_false (not_reports_of_thrown named result threw counts) fun clear => ?_
          cases (clear.1 rfl).1

end Specifications

/-! ## Bookkeeping -/

/-- Effects without an observable call. -/
def Unobserved (before after : HelperSession) : Prop := after.calls = before.calls

theorem Unobserved.effects : EffectRelation Unobserved where
  refl _ := rfl
  trans first later := later.trans first

theorem Unobserved.read {α : Type} (answer : HelperSession → α) :
    Preserves Unobserved (do pure (answer (← get))) := fun _ => rfl

theorem Unobserved.perform (statement : Fleet.Statement) :
    Preserves Unobserved (HelperSession.perform statement) := fun _ => rfl

theorem Unobserved.nextRun (row : JobRow) :
    Preserves Unobserved (TimestampHelper.nextRun fleet row) := by
  intro session
  rw [exec_nextRun]
  exact Unobserved.effects.refl session

theorem Unobserved.get {α : Type} {next : HelperSession → Action HelperSession α}
    (later : ∀ session, Preserves Unobserved (next session)) :
    Preserves Unobserved (MonadState.get >>= next) :=
  Unobserved.effects.bind (fun _ => rfl) later

namespace Prisma

theorem update_unobserved (condition : JobRow → Bool) (change : RowUpdate) :
    Preserves Unobserved (update condition change) :=
  Unobserved.get fun _ => Unobserved.effects.bind (Unobserved.effects.ensure _ _) fun _ =>
    Unobserved.perform _

theorem updateFinishTask_unobserved (id : String) :
    Preserves Unobserved (updateFinishTask fleet id) := by
  have effects := Unobserved.effects
  refine effects.runIf _ (effects.bind (Unobserved.read _) fun found => ?_)
  cases found with
  | none => exact effects.pure ()
  | some job =>
      exact effects.bind (effects.runIf _ (Unobserved.perform _)) fun _ =>
        effects.bind (Unobserved.nextRun job) fun _ =>
          Unobserved.get fun _ => update_unobserved _ _

theorem updateFailure_calls (id : String) (session : HelperSession) :
    (exec (updateFailure fleet delay id) session).2.calls =
      session.calls ++ [.updateFailure id] := by
  have effects := Unobserved.effects
  rw [updateFailure, exec_bind_ok (exec_record _ _)]
  refine effects.runIf _ (effects.bind (Unobserved.read _) fun found => ?_) _
  cases found with
  | none => exact effects.pure ()
  | some job =>
      exact effects.bind (effects.runIf _ (effects.bind (effects.ensure _ _) fun _ =>
        Unobserved.get fun _ => update_unobserved _ _)) fun _ =>
          Unobserved.get fun _ => update_unobserved _ _

/-- A job without a repeat interval is deleted, and then the computation of its next run throws. -/
theorem exec_discard {store : Option Int → Action HelperSession Unit} (once : row.oneOff = true)
    (session : HelperSession) : ∃ message,
    exec (do
      runIf row.oneOff (perform (.delete (fleet.addresses id)))
      let nextRunAt ← nextRun fleet row
      store nextRunAt) session =
      (.error message, { session with table := session.table.delete (fleet.addresses id) }) := by
  have deletes : exec (runIf true (perform (.delete (fleet.addresses id)))) session =
    (.ok (), { session with table := session.table.delete (fleet.addresses id) }) := rfl
  have unschedulable : ¬ Schedulable fleet session.now row :=
    fun schedulable => by cases once.symm.trans schedulable.not_oneOff
  obtain ⟨message, stops⟩ := exec_nextRun_throws unschedulable
  refine ⟨message, ?_⟩
  rw [once, exec_bind_ok deletes, exec_bind_error (stops
    { session with table := session.table.delete (fleet.addresses id) } rfl)]

/-- A row is put back exactly if it is gone or its next run can be computed; it is gone then only
if it was before. -/
theorem updateFinishTask_iff (nonempty : id ≠ "") (oneOff : Bool) (session : HelperSession) :
    ((exec (updateFinishTask fleet id) session).1 = .ok () ∧
      (oneOff = true →
        fleet.lookUp (exec (updateFinishTask fleet id) session).2.table id = none)) ↔
      ∀ found, fleet.lookUp session.table id = some found →
        oneOff = false ∧ Schedulable fleet session.now found := by
  have asked : (id != "") = true := by simpa using nonempty
  rw [updateFinishTask, asked, runIf, if_pos rfl, exec_bind_ok (exec_findJob id session)]
  cases found : fleet.lookUp session.table id with
  | none => exact iff_of_true ⟨rfl, fun _ => found⟩ (by simp)
  | some job =>
      dsimp only
      by_cases schedulable : Schedulable fleet session.now job
      · obtain ⟨member, addressed, -⟩ := mem_of_lookUp found
        have recurring := schedulable.not_oneOff
        obtain ⟨nextRunAt, computed⟩ := schedulable
        have next : exec (nextRun fleet job) session = (.ok nextRunAt, session) := by
          rw [exec_nextRun, computed]
        rw [recurring, exec_bind_ok (exec_runIf_false _ _), exec_bind_ok next,
          exec_bind_ok (exec_get session), exec_update member addressed]
        have kept : fleet.lookUp (session.table.write (fleet.addresses id)
            (Fleet.finished session.now nextRunAt)) id =
              some ((Fleet.finished session.now nextRunAt).apply job) := Fleet.lookUp_write found
        rw [kept]
        constructor
        · rintro ⟨-, deleted⟩ other same
          obtain rfl := Option.some.inj same
          refine ⟨Bool.eq_false_iff.mpr fun isOneOff => ?_, nextRunAt, computed⟩
          cases deleted isOneOff
        · intro clear
          refine ⟨rfl, fun isOneOff => ?_⟩
          cases isOneOff.symm.trans (clear job rfl).1
      · refine iff_of_false (fun done => ?_) fun clear => schedulable (clear job rfl).2
        cases isOneOff : job.oneOff with
        | true =>
            obtain ⟨message, stops⟩ := exec_discard isOneOff session
            rw [stops] at done
            cases done.1
        | false =>
            obtain ⟨message, stops⟩ := exec_nextRun_throws schedulable
            rw [isOneOff, exec_bind_ok (exec_runIf_false _ _), exec_bind_error (stops _ rfl)]
              at done
            cases done.1

/-- A row with a time zone is released before its failure is counted again. -/
theorem exec_retry (found : fleet.lookUp session.table id = some row)
    (zone : (filled row.timezone).isSome = true) :
    exec (runIf true do
      requireZone row.timezone
      update (fleet.addresses id) (Fleet.retried (← get).now delay row)) session =
      (.ok (), { session with
        table := session.table.write (fleet.addresses id)
          (Fleet.retried session.now delay row) }) := by
  obtain ⟨member, addressed, -⟩ := mem_of_lookUp found
  rw [runIf, if_pos rfl, requireZone, zone, exec_bind_ok (exec_ensure_true _ _),
    exec_bind_ok (exec_get _), exec_update member addressed]

/-- Without a time zone nothing is written. -/
theorem exec_retry_refused {retry : Action HelperSession Unit}
    (zone : (filled row.timezone).isSome = false) :
    exec (runIf true do
      requireZone row.timezone
      retry) session =
      (.error "TypeError: Cannot read properties of undefined (reading 'add')", session) := by
  rw [runIf, if_pos rfl, requireZone, zone]
  rfl

/-- A failure is counted unless it is to be tried again in a time zone without a name. -/
theorem updateFailure_iff (nonempty : id ≠ "") (session : HelperSession) :
    (exec (updateFailure fleet delay id) session).1 = .ok () ↔
      ∀ found, fleet.lookUp session.table id = some found → Retriable fleet found := by
  have asked : (id != "") = true := by simpa using nonempty
  rw [updateFailure, exec_bind_ok (exec_record _ _), asked, runIf, if_pos rfl,
    exec_bind_ok (exec_findJob id _)]
  cases found : fleet.lookUp session.table id with
  | none => exact iff_of_true rfl (by simp)
  | some job =>
      dsimp only
      obtain ⟨member, addressed, identified⟩ := mem_of_lookUp found
      have same : job.key = jobKey id job.nameSpace := by rw [Job.key, identified]
      cases retried : fleet.retries job with
      | false =>
          rw [exec_bind_ok (exec_runIf_false _ _), exec_bind_ok (exec_get _),
            exec_update (by exact member) (decide_eq_true same)]
          refine iff_of_true rfl fun other also => ?_
          obtain rfl := Option.some.inj also
          rw [Retriable, retried]
          exact fun again => (by cases again)
      | true =>
          cases zone : (filled job.timezone).isSome with
          | false =>
              rw [exec_bind_error (exec_retry_refused zone)]
              refine iff_of_false (fun done => by cases done) fun clear => ?_
              exact Bool.false_ne_true (zone.symm.trans (clear job rfl retried))
          | true =>
              have again : fleet.lookUp (session.table.write (fleet.addresses id)
                  (Fleet.retried session.now delay job)) id =
                    some ((Fleet.retried session.now delay job).apply job) :=
                Fleet.lookUp_write found
              have kept : ((Fleet.retried session.now delay job).apply job).key =
                  jobKey id job.nameSpace := same
              have located : fleet.lookUp { session with
                  calls := session.calls ++ [HelperCall.updateFailure id] }.table id =
                    some job := found
              rw [exec_bind_ok (exec_retry located zone), exec_bind_ok (exec_get _),
                exec_update (by exact (mem_of_lookUp again).1) (decide_eq_true kept)]
              refine iff_of_true rfl fun other also _ => ?_
              obtain rfl := Option.some.inj also
              exact zone

end Prisma

namespace Sequelize

theorem exec_update (row : JobRow) (change : RowUpdate) (session : HelperSession) :
    exec (update fleet row change) session =
      (.ok (change.apply row),
        { session with
          table := session.table.write (fleet.addresses row.id)
            (fleet.columns { values := row } change) }) := rfl

theorem updateFinishTask_unobserved (row : JobRow) :
    Preserves Unobserved (updateFinishTask fleet row) := by
  have effects := Unobserved.effects
  rw [updateFinishTask]
  split
  · exact Unobserved.perform _
  · exact effects.bind (Unobserved.nextRun row) fun _ =>
      Unobserved.get fun _ => effects.bind (fun _ => rfl) fun _ => effects.pure ()

theorem updateFailure_calls (row : JobRow) (session : HelperSession) :
    (exec (updateFailure fleet delay row) session).2.calls =
      session.calls ++ [.updateFailure row.id] := by
  have effects := Unobserved.effects
  have saves (change : HelperSession → RowUpdate) :
      Preserves Unobserved (do let _ ← update fleet row (change (← get))) :=
    Unobserved.get fun _ => effects.bind (fun _ => rfl) fun _ => effects.pure ()
  rw [updateFailure, exec_bind_ok (exec_record _ _)]
  split
  · exact effects.bind (effects.ensure _ _) (fun _ => saves _) _
  · exact saves _ _

/-- A row is put back exactly if it is deleted or its next run can be computed. -/
theorem updateFinishTask_iff (row : JobRow) (session : HelperSession) :
    ((exec (updateFinishTask fleet row) session).1 = .ok () ∧
      (row.oneOff = true →
        fleet.lookUp (exec (updateFinishTask fleet row) session).2.table row.id = none)) ↔
      row.oneOff = true ∨ Schedulable fleet session.now row := by
  rw [updateFinishTask]
  by_cases oneOff : row.oneOff = true
  · rw [if_pos oneOff, exec_perform]
    exact iff_of_true ⟨rfl, fun _ => Fleet.lookUp_delete _ _⟩ (.inl oneOff)
  · rw [if_neg oneOff, exec_bind, exec_nextRun, or_iff_right oneOff, Schedulable]
    cases computeNextRun fleet.library fleet.moment session.now row.repeatInterval
      row.timezone with
    | ok nextRunAt => exact iff_of_true ⟨rfl, fun isOneOff => absurd isOneOff oneOff⟩ ⟨_, rfl⟩
    | error message => exact iff_of_false (fun done => by cases done.1) (by simp)

/-- A failure is counted unless it is to be tried again in a time zone without a name. -/
theorem updateFailure_iff (row : JobRow) (session : HelperSession) :
    (exec (updateFailure fleet delay row) session).1 = .ok () ↔ Retriable fleet row := by
  rw [updateFailure, exec_bind_ok (exec_record _ _), Retriable]
  cases fleet.retries row with
  | false => exact iff_of_true rfl (by simp)
  | true =>
      simp only [if_true, requireZone, forall_true_left]
      cases (filled row.timezone).isSome with
      | false => exact iff_of_false (fun done => by cases done) (by simp)
      | true => exact iff_of_true rfl rfl

end Sequelize

/-! ## Wrapped tasks -/

section Wrapped

variable {task : TaskCallback} {args : Option TaskArguments} {context : Option JobContext}
  {jobs : Jobs}

theorem begun_of_none (unnamed : namedRow fleet args context jobs = none) :
    begun fleet args context jobs = jobs := by
  rw [begun, unnamed]

/-- Without a row only the answer to the caller matters. -/
theorem reports_of_none (unnamed : namedRow fleet args context jobs = none)
    {run : Except String (Option Json) × HelperSession} :
    Reports fleet task args context jobs run ↔
      run.1 = .ok (reported (exec (awaited task args context) jobs).1) := by
  have same : outcome fleet task args context jobs = (exec (awaited task args context) jobs).1 := by
    rw [outcome, begun_of_none unnamed]
  constructor
  · intro reports
    rw [← same]
    exact reports.returns
  · intro returns
    rw [← same] at returns
    refine ⟨returns, ?_, ?_, ?_⟩ <;> intro row named <;> cases unnamed.symm.trans named

/-- The row of the job that the caller names is the row of an identifier that is not empty. -/
theorem exists_of_namedRow (named : namedRow fleet args context jobs = some row) :
    filled (Sequelize.jobId args context) = some row.id ∧
      fleet.lookUp jobs.table row.id = some row ∧ row.id ≠ "" := by
  obtain ⟨id, filled_id, found⟩ := Option.bind_eq_some_iff.mp named
  obtain rfl := (mem_of_lookUp found).2.2
  exact ⟨filled_id, found, (filled_eq_some filled_id).2⟩

namespace Prisma

/-- The identifier of the job is found unless it is looked for in a missing object. -/
theorem exec_jobId {arguments : TaskArguments}
    (given : arguments.context.bind JobContext.job = none → context ≠ none)
    (session : HelperSession) :
    exec (jobId (some arguments) context) session =
      (.ok (Sequelize.jobId (some arguments) context), session) := by
  cases own : arguments.context.bind JobContext.job with
  | some id =>
      simp only [jobId, Sequelize.jobId, Option.bind_some, own]
      rfl
  | none =>
      obtain ⟨present, rfl⟩ := Option.ne_none_iff_exists'.mp (given own)
      simp only [jobId, Sequelize.jobId, Option.bind_some, own]
      rfl

theorem jobId_throws (absent : ¬ ∃ arguments, args = some arguments ∧
    (arguments.context.bind JobContext.job = none → context ≠ none)) (session : HelperSession) :
    ∃ message, exec (jobId args context) session = (.error message, session) := by
  cases args with
  | none => exact ⟨_, rfl⟩
  | some arguments =>
      have missing : arguments.context.bind JobContext.job = none ∧ context = none := by
        by_contra present
        exact absent ⟨arguments, rfl, fun own gone => present ⟨own, gone⟩⟩
      simp only [jobId, missing.1, missing.2]
      exact ⟨_, rfl⟩

theorem unaccounted_reports (unnamed : namedRow fleet args context jobs = none) :
    Reports fleet task args context jobs (exec (unaccounted task args context) ⟨jobs, []⟩) := by
  rw [reports_of_none unnamed, unaccounted, exec_bind_ok (exec_attempt _ _), exec_onJobs]
  rcases exec (awaited task args context) jobs with ⟨result, after⟩
  cases result with
  | ok value => rfl
  | error message => rfl

theorem exec_timestampHelper_none {arguments : TaskArguments}
    (given : arguments.context.bind JobContext.job = none → context ≠ none)
    (unnamed : namedRow fleet (some arguments) context jobs = none) :
    exec (timestampHelper fleet delay task (some arguments) context) ⟨jobs, []⟩ =
      exec (unaccounted task (some arguments) context) ⟨jobs, []⟩ := by
  rw [timestampHelper, exec_bind_ok (exec_jobId given _)]
  cases named : filled (Sequelize.jobId (some arguments) context) with
  | none => rfl
  | some id =>
      rw [namedRow, named, Option.bind_some] at unnamed
      dsimp only
      rw [exec_bind_ok (exec_findJob id _), unnamed]

theorem exec_timestampHelper_some (prisma : fleet.package = .prisma) {arguments : TaskArguments}
    (given : arguments.context.bind JobContext.job = none → context ≠ none)
    (named : namedRow fleet (some arguments) context jobs = some row) :
    exec (timestampHelper fleet delay task (some arguments) context) ⟨jobs, []⟩ =
      exec (reporting row.id
        (do
          let result ← onJobs (awaited task (some arguments) context)
          updateFinishTask fleet row.id
          pure result)
        (updateFailure fleet delay row.id)) ⟨begun fleet (some arguments) context jobs, []⟩ := by
  obtain ⟨filled_id, found, nonempty⟩ := exists_of_namedRow named
  obtain ⟨member, addressed, -⟩ := mem_of_lookUp found
  have asked : (row.id != "") = true := by simpa using nonempty
  have starts : exec (updateStartTask fleet row.id) ⟨jobs, []⟩ =
      (.ok (), ⟨begun fleet (some arguments) context jobs, []⟩) := by
    rw [updateStartTask, asked, runIf, if_pos rfl, exec_bind_ok (exec_get _),
      exec_update (by exact member) addressed, begun, named]
    simp only [Fleet.columns, prisma]
  rw [timestampHelper, exec_bind_ok (exec_jobId given _), filled_id]
  dsimp only
  rw [exec_bind_ok (exec_findJob row.id _), found]
  dsimp only
  rw [exec_bind_ok starts]

/-- The Prisma helper reports the outcome of the task exactly if the arguments are there, and the
row as it is found again after the task can be put back or its failure counted. -/
theorem reports_iff (prisma : fleet.package = .prisma) :
    Reports fleet task args context jobs
      (exec (timestampHelper fleet delay task args context) ⟨jobs, []⟩) ↔
      PrismaClear fleet task args context jobs := by
  by_cases given : ∃ arguments, args = some arguments ∧
      (arguments.context.bind JobContext.job = none → context ≠ none)
  · obtain ⟨arguments, rfl, owned⟩ := given
    cases named : namedRow fleet (some arguments) context jobs with
    | none =>
        rw [exec_timestampHelper_none owned named]
        refine iff_of_true (unaccounted_reports named) ⟨⟨_, rfl, owned⟩, ?_, ?_⟩ <;>
          intro row found <;> cases named.symm.trans found
    | some row =>
        obtain ⟨-, -, nonempty⟩ := exists_of_namedRow named
        rw [exec_timestampHelper_some prisma owned named, reports_reporting_iff named
          (updateFinishTask_unobserved row.id) (updateFailure_calls row.id),
          updateFinishTask_iff nonempty, updateFailure_iff nonempty]
        constructor
        · rintro ⟨finishes, fails⟩
          refine ⟨⟨_, rfl, owned⟩, ?_, ?_⟩ <;> intro other also <;>
            obtain rfl := Option.some.inj (named.symm.trans also)
          · exact finishes
          · exact fails
        · exact fun clear => ⟨clear.finishes row named, clear.fails row named⟩
  · obtain ⟨message, threw⟩ := jobId_throws given ⟨jobs, []⟩
    rw [timestampHelper, exec_bind_error threw]
    exact iff_of_false (fun reports => by cases reports.returns) fun clear => given clear.given

end Prisma

namespace Sequelize

/-- A task without a row answers as it should unless its promise is rejected. -/
theorem unaccounted_reports_iff (unnamed : namedRow fleet args context jobs = none) :
    Reports fleet task args context jobs (exec (unaccounted task args context) ⟨jobs, []⟩) ↔
      ∀ message, (exec (task args context) jobs).1 ≠ .ok (.error message) := by
  rw [reports_of_none unnamed, unaccounted, exec_bind_ok (exec_attempt _ _), exec_onJobs, awaited,
    exec_bind]
  rcases exec (task args context) jobs with ⟨result, after⟩
  cases result with
  | error thrown => exact iff_of_true rfl fun message rejected => by cases rejected
  | ok promise =>
      cases promise with
      | ok value => exact iff_of_true rfl fun message rejected => by cases rejected
      | error message =>
          exact iff_of_false (fun reports => by cases reports) fun clear => clear message rfl

theorem exec_timestampHelper_none (unnamed : namedRow fleet args context jobs = none) :
    exec (timestampHelper fleet delay task args context) ⟨jobs, []⟩ =
      exec (unaccounted task args context) ⟨jobs, []⟩ := by
  rw [timestampHelper]
  cases named : filled (jobId args context) with
  | none => rfl
  | some id =>
      rw [namedRow, named, Option.bind_some] at unnamed
      dsimp only
      rw [exec_bind_ok (exec_findJob id _), unnamed]

/-- The row of a job once the Sequelize helper has written that the job starts. -/
def started (jobs : Jobs) (row : JobRow) : JobRow :=
  RowUpdate.apply { acceptedAt := some jobs.now } row

theorem exec_timestampHelper_some (named : namedRow fleet args context jobs = some row) :
    exec (timestampHelper fleet delay task args context) ⟨jobs, []⟩ =
      exec (reporting row.id
        (do
          let result ← onJobs (awaited task args context)
          updateFinishTask fleet (started jobs row)
          pure result)
        (updateFailure fleet delay (started jobs row))) ⟨begun fleet args context jobs, []⟩ := by
  obtain ⟨filled_id, found, -⟩ := exists_of_namedRow named
  have starts : exec (updateStartTask fleet row) ⟨jobs, []⟩ =
      (.ok (started jobs row), ⟨begun fleet args context jobs, []⟩) := by
    rw [updateStartTask, exec_bind_ok (exec_get _), exec_update, begun, named]
    rfl
  rw [timestampHelper, filled_id]
  dsimp only
  rw [exec_bind_ok (exec_findJob row.id _), found]
  dsimp only
  rw [exec_bind_ok starts]

/-- The Sequelize helper reports the outcome of the task exactly if a task without a row is not
rejected later, and the row as it was found before the task can be put back or its failure
counted. -/
theorem reports_iff :
    Reports fleet task args context jobs
      (exec (timestampHelper fleet delay task args context) ⟨jobs, []⟩) ↔
      SequelizeClear fleet task args context jobs := by
  cases named : namedRow fleet args context jobs with
  | none =>
      rw [exec_timestampHelper_none named, unaccounted_reports_iff named]
      constructor
      · refine fun immediate => ⟨fun _ => immediate, ?_, ?_⟩ <;> intro row found <;>
          cases named.symm.trans found
      · exact fun clear => clear.immediate named
  | some row =>
      -- The start changes nothing on which putting the row back depends.
      have finishes : ((exec (updateFinishTask fleet (started jobs row))
            ⟨left fleet task args context jobs, []⟩).1 = .ok () ∧
          (row.oneOff = true → fleet.lookUp (exec (updateFinishTask fleet (started jobs row))
            ⟨left fleet task args context jobs, []⟩).2.table row.id = none)) ↔
          row.oneOff = true ∨ Schedulable fleet (left fleet task args context jobs).now row :=
        updateFinishTask_iff (started jobs row) _
      have fails : (exec (updateFailure fleet delay (started jobs row))
          ⟨left fleet task args context jobs, []⟩).1 = .ok () ↔ Retriable fleet row :=
        updateFailure_iff (started jobs row) _
      rw [exec_timestampHelper_some named, reports_reporting_iff named
        (updateFinishTask_unobserved _) (updateFailure_calls (started jobs row)), finishes, fails]
      constructor
      · rintro ⟨putBack, counts⟩
        refine ⟨fun absent => (by cases named.symm.trans absent), ?_, ?_⟩ <;> intro other also <;>
          obtain rfl := Option.some.inj (named.symm.trans also)
        · exact putBack
        · exact counts
      · exact fun clear => ⟨clear.finishes row named, clear.fails row named⟩

end Sequelize

/-- The condition under which the helper of a package reports the outcome of a task. -/
def Clear (fleet : Fleet) (task : TaskCallback) (args : Option TaskArguments)
    (context : Option JobContext) (jobs : Jobs) : Prop :=
  match fleet.package with
  | .prisma => PrismaClear fleet task args context jobs
  | .sequelize => SequelizeClear fleet task args context jobs

/-- The helper never rejects, reports the outcome of the task and puts the row back exactly under
the condition of its package. -/
theorem timestampHelper_reports_iff (fleet : Fleet) (delay : Nat) (task : TaskCallback)
    (args : Option TaskArguments) (context : Option JobContext) (jobs : Jobs) :
    Reports fleet task args context jobs
      (exec (timestampHelper fleet delay task args context) ⟨jobs, []⟩) ↔
      Clear fleet task args context jobs := by
  rw [timestampHelper, Clear]
  cases package : fleet.package with
  | prisma => exact Prisma.reports_iff package
  | sequelize => exact Sequelize.reports_iff

end Wrapped

/-! ## A job that runs once and a task without a job -/

/-- A scheduler with one task. -/
def onceFleet (package : Package) : Fleet where
  library := hourlyRules
  moment := universalTime
  package := package
  settings :=
    { jobsSafeToRestart := []
      jobsRiskyToRestart := []
      jobsCustomRestart := []
      tasks := ["mail"]
      wrapped := ["mail"] }

/-- A job with an empty repeat interval. -/
def onceRow : JobRow where
  toJob := { hourlyJob with repeatInterval := some "" }
  name := "mail"
  lastRunAt := none
  acceptedAt := none
  deletedAt := none

/-- The Prisma helper takes a job that runs once and succeeds for a failure, and the Sequelize
helper rejects with a task that has no job. -/
theorem timestampHelper_misreports :
    ¬ Reports (onceFleet .prisma) (fun _ _ => pure (.ok (some (.bool true))))
      (some ⟨some ⟨some onceRow.id⟩, []⟩) none ⟨JobTable.empty.insert onceRow, exactSecond⟩
      (exec (timestampHelper (onceFleet .prisma) 0 (fun _ _ => pure (.ok (some (.bool true))))
        (some ⟨some ⟨some onceRow.id⟩, []⟩) none)
        ⟨⟨JobTable.empty.insert onceRow, exactSecond⟩, []⟩) ∧
    ¬ Reports (onceFleet .sequelize) (fun _ _ => pure (.error "Error: not sent"))
      (some ⟨none, []⟩) (some ⟨none⟩) ⟨JobTable.empty, exactSecond⟩
      (exec (timestampHelper (onceFleet .sequelize) 0 (fun _ _ => pure (.error "Error: not sent"))
        (some ⟨none, []⟩) (some ⟨none⟩)) ⟨⟨JobTable.empty, exactSecond⟩, []⟩) := by
  have prisma : timestampHelper (onceFleet .prisma) 0 =
      Prisma.timestampHelper (onceFleet .prisma) 0 := rfl
  have sequelize : timestampHelper (onceFleet .sequelize) 0 =
      Sequelize.timestampHelper (onceFleet .sequelize) 0 := rfl
  rw [prisma, sequelize, Prisma.reports_iff rfl, Sequelize.reports_iff]
  constructor
  · intro clear
    have recurring : onceRow.oneOff = false := (clear.finishes onceRow rfl rfl _ rfl).1
    cases recurring
  · exact fun clear => clear.immediate rfl _ rfl

end TimestampHelper

end Steveo.Scheduler
