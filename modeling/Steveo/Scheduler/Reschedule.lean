import Steveo.Library.Action
import Steveo.Scheduler.Recurrence

/-!
# Finished and reset jobs

This file models how the Prisma and the Sequelize scheduler put a recurring job back after it has
finished or got stuck, and says when the stored next run lies in the future.
-/

namespace Steveo.Scheduler

open Steveo.Action

/-- The columns of a job row that rescheduling reads or writes. -/
structure Job where
  id : String
  nameSpace : Option String
  queued : Bool
  nextRunAt : Option Int
  lastFinishedAt : Option Int
  failures : Nat
  failedAt : Option Int
  repeatInterval : Option String
  timezone : Option String

/-- The key by which a row is looked up; an empty namespace counts as absent. -/
def jobKey (id : String) (nameSpace : Option String) : String × Option String :=
  (id, nameSpace.filter (· ≠ ""))

/-- The key of a job. -/
def Job.key (job : Job) : String × Option String := jobKey job.id job.nameSpace

/-- Whether a job has no repeat interval. -/
def Job.oneOff (job : Job) : Bool := job.repeatInterval.getD "" == ""

/-- The jobs table and the reset events that have been emitted. -/
structure Schedule where
  jobs : String × Option String → Option Job
  resets : List (Job × Option Int)

namespace Schedule

/-- Replace one row. -/
def stored (schedule : Schedule) (key : String × Option String) (row : Option Job) : Schedule :=
  { schedule with jobs := Function.update schedule.jobs key row }

/-- Notify the listeners of a reset. -/
def emitted (schedule : Schedule) (job : Job) (nextRunAt : Option Int) : Schedule :=
  { schedule with resets := schedule.resets ++ [(job, nextRunAt)] }

@[simp] theorem stored_jobs (schedule : Schedule) (key : String × Option String)
    (row : Option Job) : (schedule.stored key row).jobs key = row :=
  Function.update_self _ _ _

end Schedule

/-- The columns that finishing a job writes.  An undefined next run leaves its column alone. -/
def Job.finished (now : Int) (nextRunAt : Option Int) (job : Job) : Job :=
  { job with
    queued := false
    nextRunAt := nextRunAt.or job.nextRunAt
    lastFinishedAt := some now
    failures := 0
    failedAt := none }

/-- The columns that resetting a job writes; the Prisma scheduler also clears the failures. -/
def Job.reset (clearFailures : Bool) (nextRunAt : Option Int) (job : Job) : Job :=
  { job with
    queued := false
    nextRunAt := nextRunAt.or job.nextRunAt
    failures := if clearFailures then 0 else job.failures }

/-- Notify the listeners of a reset. -/
def emitReset (job : Job) (nextRunAt : Option Int) : Action Schedule Unit :=
  modify fun schedule => schedule.emitted job nextRunAt

variable (library : RRuleLibrary) (moment : Moment)

/-- The next run of a job. -/
def nextRunOf (now : Int) (job : Job) : Action Schedule (Option Int) :=
  ofExcept (computeNextRun library moment now job.repeatInterval job.timezone)

namespace Prisma

/-- Change a row, which has to exist. -/
def update (key : String × Option String) (change : Job → Job) : Action Schedule Unit := do
  match (← get).jobs key with
  | none => throw "PrismaClientKnownRequestError: Record to update not found."
  | some job => modify fun schedule => schedule.stored key (some (change job))

/-- Delete a row that has been found. -/
def delete (key : String × Option String) : Action Schedule Unit :=
  modify fun schedule => schedule.stored key none

/-- Put a finished job back.  A job without a repeat interval is deleted, and then the computation
of its next run throws. -/
def updateFinishTask (now : Int) (id nameSpace : Option String) : Action Schedule Unit :=
  match id with
  | none | some "" => pure ()
  | some id => do
      match (← get).jobs (jobKey id nameSpace) with
      | none => pure ()
      | some job =>
          runIf job.oneOff (delete (jobKey id nameSpace))
          let nextRunAt ← nextRunOf library moment now job
          update (jobKey id nameSpace) (Job.finished now nextRunAt)

/-- Put a stuck job back. -/
def resetJob (now : Int) (job : Job) : Action Schedule Unit := do
  let nextRunAt ← nextRunOf library moment now job
  emitReset job nextRunAt
  update job.key (Job.reset true nextRunAt)

end Prisma

namespace Sequelize

/-- Change a row if it exists. -/
def update (key : String × Option String) (change : Job → Job) : Action Schedule Unit :=
  modify fun schedule => schedule.stored key ((schedule.jobs key).map change)

/-- Put a finished job back, or delete a job without a repeat interval. -/
def updateFinishTask (now : Int) (job : Option Job) : Action Schedule Unit :=
  match job with
  | none => pure ()
  | some job =>
      if job.oneOff then
        modify fun schedule => schedule.stored job.key none
      else do
        let nextRunAt ← nextRunOf library moment now job
        update job.key (Job.finished now nextRunAt)

/-- Put a stuck job back. -/
def resetJob (now : Int) (job : Job) : Action Schedule Unit :=
  if job.oneOff then
    pure ()
  else do
    let nextRunAt ← nextRunOf library moment now job
    emitReset job nextRunAt
    update job.key (Job.reset false nextRunAt)

end Sequelize

/-- The operations that put a job back.  All but the first work on a row read before. -/
inductive Rescheduling
  | prismaFinish
  | prismaReset (job : Job)
  | sequelizeFinish (job : Job)
  | sequelizeReset (job : Job)

namespace Rescheduling

/-- The row from which the next run is computed. -/
def source (rescheduling : Rescheduling) (row : Job) : Job :=
  match rescheduling with
  | .prismaFinish => row
  | .prismaReset job | .sequelizeFinish job | .sequelizeReset job => job

/-- Put the job of a row back. -/
def run (rescheduling : Rescheduling) (now : Int) (row : Job) : Action Schedule Unit :=
  match rescheduling with
  | .prismaFinish =>
      Prisma.updateFinishTask library moment now (some row.id) row.nameSpace
  | .prismaReset job => Prisma.resetJob library moment now job
  | .sequelizeFinish job => Sequelize.updateFinishTask library moment now (some job)
  | .sequelizeReset job => Sequelize.resetJob library moment now job

end Rescheduling

/-- The row waits for an instant after the given one. -/
def Job.Waits (now : Int) (job : Job) : Prop :=
  ∃ next, job.nextRunAt = some next ∧ now < next

/-- The rule comes up within half a year but not at once, or it does not come up and the row
already waits for a later instant. -/
def Upcoming {library : RRuleLibrary} (occurs : library.RRuleSet → Int → Prop)
    (rule : library.RRuleSet) (now : Int) (row : Job) : Prop :=
  ((window occurs rule now).Nonempty ∧ ¬ occurs rule now) ∨
    (window occurs rule now = ∅ ∧ row.Waits now)

/-! ## The stored next run -/

theorem exec_emitReset (job : Job) (nextRunAt : Option Int) (schedule : Schedule) :
    exec (emitReset job nextRunAt) schedule = (.ok (), schedule.emitted job nextRunAt) := rfl

theorem Prisma.exec_update {schedule : Schedule} {key : String × Option String} {row : Job}
    (found : schedule.jobs key = some row) (change : Job → Job) :
    exec (update key change) schedule = (.ok (), schedule.stored key (some (change row))) := by
  rw [update, exec_bind_ok (exec_get schedule), found]
  rfl

/-- Finishing a job that exists under its identifier computes its next run and stores it. -/
theorem Prisma.exec_updateFinishTask {library : RRuleLibrary} {moment : Moment}
    {now : Int} {schedule : Schedule} {row : Job} (found : schedule.jobs row.key = some row)
    (identified : row.id ≠ "") :
    exec (updateFinishTask library moment now (some row.id) row.nameSpace) schedule = exec (do
      runIf row.oneOff (delete row.key)
      let nextRunAt ← nextRunOf library moment now row
      update row.key (Job.finished now nextRunAt)) schedule := by
  rw [updateFinishTask.eq_def]
  split
  · contradiction
  · rename_i empty
    exact absurd (Option.some.inj empty) identified
  · rename_i same
    obtain rfl := Option.some.inj same
    rw [exec_bind_ok (exec_get schedule)]
    rw [Job.key] at found
    rw [found]
    rfl

theorem Sequelize.exec_update {schedule : Schedule} {key : String × Option String}
    {row : Job} (found : schedule.jobs key = some row) (change : Job → Job) :
    exec (update key change) schedule = (.ok (), schedule.stored key (some (change row))) := by
  rw [update, exec_modify, found]
  rfl

section Specifications

variable {library moment} {occurs : library.RRuleSet → Int → Prop}
  (searches : library.Searches occurs) {now : Int} {recurrence : String}
  {rule : library.RRuleSet} (filled : recurrence ≠ "")

include searches filled

/-- Computing the next run of a recurring job returns the earliest occurrence in the window. -/
theorem exec_nextRunOf {job : Job} (repeats : job.repeatInterval = some recurrence)
    (parsed : parsedRule library moment now recurrence job.timezone = .ok rule) :
    ∃ next, Earliest (window occurs rule now) next ∧
      ∀ schedule, exec (nextRunOf library moment now job) schedule = (.ok next, schedule) := by
  obtain ⟨next, computed, earliest⟩ := computeNextRun_spec searches filled parsed
  refine ⟨next, earliest, fun schedule => ?_⟩
  rw [nextRunOf, repeats, computed, exec_ofExcept_ok]

omit searches in
theorem Job.not_oneOff {job : Job} (repeats : job.repeatInterval = some recurrence) :
    job.oneOff = false := by
  simpa [Job.oneOff, repeats] using filled

/-- Putting a recurring job back stores the next run that was found, or leaves the column alone. -/
theorem Rescheduling.exec_run (rescheduling : Rescheduling) {schedule : Schedule} {row : Job}
    (stored : schedule.jobs (rescheduling.source row).key = some row)
    (identified : rescheduling = .prismaFinish → row.id ≠ "")
    (repeats : (rescheduling.source row).repeatInterval = some recurrence)
    (parsed : parsedRule library moment now recurrence (rescheduling.source row).timezone =
      .ok rule) :
    ∃ next changed after, Earliest (window occurs rule now) next ∧
      exec (rescheduling.run library moment now row) schedule = (.ok (), after) ∧
      after.jobs (rescheduling.source row).key = some changed ∧ changed.queued = false ∧
      changed.nextRunAt = next.or row.nextRunAt := by
  obtain ⟨next, earliest, found⟩ := exec_nextRunOf searches filled repeats parsed
  have recurring := Job.not_oneOff filled repeats
  cases rescheduling with
  | prismaFinish =>
      simp only [source] at found recurring stored
      refine ⟨next, row.finished now next, schedule.stored row.key (some (row.finished now next)),
        earliest, ?_, schedule.stored_jobs _ _, rfl, rfl⟩
      rw [Rescheduling.run, Prisma.exec_updateFinishTask stored (identified rfl),
        recurring, exec_bind_ok (exec_runIf_false _ _), exec_bind_ok (found schedule)]
      exact Prisma.exec_update stored _
  | prismaReset job =>
      simp only [source] at found stored
      refine ⟨next, row.reset true next,
        (schedule.emitted job next).stored job.key (some (row.reset true next)), earliest, ?_,
        Schedule.stored_jobs _ _ _, rfl, rfl⟩
      have kept : (schedule.emitted job next).jobs job.key = some row := stored
      rw [Rescheduling.run, Prisma.resetJob, exec_bind_ok (found schedule),
        exec_bind_ok (exec_emitReset job next schedule)]
      exact Prisma.exec_update kept _
  | sequelizeFinish job =>
      simp only [source] at found recurring stored
      refine ⟨next, row.finished now next, schedule.stored job.key (some (row.finished now next)),
        earliest, ?_, schedule.stored_jobs _ _, rfl, rfl⟩
      rw [Rescheduling.run, Sequelize.updateFinishTask, recurring]
      exact (exec_bind_ok (found schedule) _).trans (Sequelize.exec_update stored _)
  | sequelizeReset job =>
      simp only [source] at found recurring stored
      refine ⟨next, row.reset false next,
        (schedule.emitted job next).stored job.key (some (row.reset false next)), earliest, ?_,
        Schedule.stored_jobs _ _ _, rfl, rfl⟩
      have kept : (schedule.emitted job next).jobs job.key = some row := stored
      rw [Rescheduling.run, Sequelize.resetJob, recurring]
      refine (exec_bind_ok (found schedule) _).trans ?_
      rw [exec_bind_ok (exec_emitReset job next schedule)]
      exact Sequelize.exec_update kept _

omit searches filled

/-- What is stored lies in the future exactly where the rule or the row is upcoming. -/
theorem waits_or_iff {next : Option Int} (earliest : Earliest (window occurs rule now) next)
    {row changed : Job} (stored : changed.nextRunAt = next.or row.nextRunAt) :
    changed.Waits now ↔ Upcoming occurs rule now row := by
  cases next with
  | none =>
      rw [Option.none_or] at stored
      have empty : window occurs rule now = ∅ := earliest
      constructor
      · intro waits
        rw [Job.Waits, stored] at waits
        exact Or.inr ⟨empty, waits⟩
      · rintro (⟨⟨run, member⟩, -⟩ | ⟨-, waits⟩)
        · rw [empty] at member
          contradiction
        · rw [Job.Waits, stored]
          exact waits
  | some run =>
      rw [Option.some_or] at stored
      obtain ⟨⟨comes, later, bounded⟩, lowest⟩ : IsLeast (window occurs rule now) run := earliest
      constructor
      · rintro ⟨waits, same, after⟩
        obtain rfl := Option.some.inj (stored.symm.trans same)
        refine Or.inl ⟨⟨run, comes, later, bounded⟩, fun due => ?_⟩
        have reached : run ≤ now :=
          lowest ⟨due, le_rfl, Int.le_add_of_nonneg_right (by decide)⟩
        exact absurd after (not_lt.mpr reached)
      · rintro (⟨-, early⟩ | ⟨empty, -⟩)
        · refine ⟨run, stored, lt_of_le_of_ne later ?_⟩
          rintro rfl
          exact early comes
        · have member : run ∈ window occurs rule now := ⟨comes, later, bounded⟩
          rw [empty] at member
          contradiction

include searches filled

/-- Putting a recurring job back schedules it strictly in the future exactly where its rule comes
up within half a year but not at once, or does not come up while the row already waits. -/
theorem rescheduled_later_iff (rescheduling : Rescheduling) {schedule : Schedule} {row : Job}
    (stored : schedule.jobs (rescheduling.source row).key = some row)
    (identified : rescheduling = .prismaFinish → row.id ≠ "")
    (repeats : (rescheduling.source row).repeatInterval = some recurrence)
    (parsed : parsedRule library moment now recurrence (rescheduling.source row).timezone =
      .ok rule) :
    ∃ changed after, exec (rescheduling.run library moment now row) schedule = (.ok (), after) ∧
      after.jobs (rescheduling.source row).key = some changed ∧ changed.queued = false ∧
      (changed.Waits now ↔ Upcoming occurs rule now row) := by
  obtain ⟨next, changed, after, earliest, executed, found, released, kept⟩ :=
    rescheduling.exec_run searches filled stored identified repeats parsed
  exact ⟨changed, after, executed, found, released, waits_or_iff earliest kept⟩

end Specifications

/-! ## A rule on an exact second -/

/-- Rules whose occurrences are known, each in ascending order. -/
def listedRules (rules : String → Option { runs : List Int // runs.Pairwise (· ≤ ·) }) :
    RRuleLibrary where
  RRuleSet := { runs : List Int // runs.Pairwise (· ≤ ·) }
  parse text := (rules text).elim (.error "Invalid rrule") .ok
  between rule first last inclusive := rule.1.filter fun run =>
    if inclusive then first ≤ run ∧ run ≤ last else first < run ∧ run < last

theorem searches_listedRules
    (rules : String → Option { runs : List Int // runs.Pairwise (· ≤ ·) }) :
    (listedRules rules).Searches fun rule run => run ∈ rule.1 where
  mem_between rule first last run := by
    simp only [listedRules, if_true, List.mem_filter, decide_eq_true_eq]
  ascending rule first last := rule.2.filter _

/-- 16:00:00.000 on 24 January 2024, universal time. -/
def exactSecond : Int := 1706112000000

/-- Universal time within that second. -/
def universalTime : Moment where
  toISOString now :=
    if now = exactSecond then "2024-01-24T16:00:00.000Z" else "2024-01-24T16:00:00.500Z"
  format date _ := .ok (String.ofList
    (((date.getD "").toList.takeWhile (· ≠ '.')).filter fun sign => sign.isDigit ∨ sign = 'T'))

/-- Every hour, two times. -/
def twiceHourly : String := "FREQ=HOURLY;INTERVAL=1;COUNT=2"

/-- The occurrences of that rule from the exact second on. -/
def twiceHourlyRuns : { runs : List Int // runs.Pairwise (· ≤ ·) } :=
  ⟨[exactSecond, exactSecond + 3600000], by decide⟩

def hourlyRules : RRuleLibrary :=
  listedRules fun text =>
    if text = "DTSTART;TZID=UTC:20240124T160000\nRRULE:" ++ twiceHourly then
      some twiceHourlyRuns
    else
      none

/-- A job that was due an hour before the exact second. -/
def hourlyJob : Job where
  id := "7"
  nameSpace := none
  queued := true
  nextRunAt := some (exactSecond - 3600000)
  lastFinishedAt := none
  failures := 0
  failedAt := none
  repeatInterval := some twiceHourly
  timezone := some "UTC"

def hourlySchedule : Schedule :=
  Schedule.stored ⟨fun _ => none, []⟩ hourlyJob.key (some hourlyJob)

theorem twiceHourly_plain : twiceHourly.startsWith "DTSTART" = false := by decide +kernel

theorem parsedRule_twiceHourly : ∀ now ∈ [exactSecond, exactSecond + 500],
    parsedRule hourlyRules universalTime now twiceHourly (some "UTC") = .ok twiceHourlyRuns := by
  simp only [parsedRule, getValidRule, twiceHourly_plain, List.forall_mem_cons]
  exact ⟨rfl, rfl, List.forall_mem_nil _⟩

theorem hourly_rescheduled : ∀ rescheduling ∈
    [.prismaFinish, .prismaReset hourlyJob, .sequelizeFinish hourlyJob, .sequelizeReset hourlyJob],
    ((exec (Rescheduling.run hourlyRules universalTime rescheduling exactSecond hourlyJob)
      hourlySchedule).2.jobs hourlyJob.key).map (fun job => (job.queued, job.nextRunAt)) =
      some (false, some exactSecond) := by
  decide +kernel

/-- On the exact second, each of the operations leaves the job released and due at once. -/
theorem hourly_due_at_once :
    hourlyRules.Searches (fun rule run => run ∈ rule.1) ∧
      parsedRule hourlyRules universalTime exactSecond twiceHourly (some "UTC") =
        .ok twiceHourlyRuns ∧
      ∀ rescheduling ∈ [.prismaFinish, .prismaReset hourlyJob, .sequelizeFinish hourlyJob,
        .sequelizeReset hourlyJob], ∃ changed,
          (exec (Rescheduling.run hourlyRules universalTime rescheduling exactSecond hourlyJob)
            hourlySchedule).2.jobs hourlyJob.key = some changed ∧
          changed.queued = false ∧ ¬ changed.Waits exactSecond := by
  refine ⟨searches_listedRules _, parsedRule_twiceHourly _ List.mem_cons_self, ?_⟩
  intro rescheduling member
  obtain ⟨changed, found, columns⟩ :=
    Option.map_eq_some_iff.mp (hourly_rescheduled rescheduling member)
  obtain ⟨released, next⟩ := Prod.mk.inj columns
  refine ⟨changed, found, released, ?_⟩
  rintro ⟨waits, same, later⟩
  obtain rfl := Option.some.inj (next.symm.trans same)
  exact lt_irrefl _ later

/-- Half a second later, the finished job waits for the next hour. -/
theorem hourly_later : ∃ changed after,
    exec (Rescheduling.run hourlyRules universalTime .prismaFinish (exactSecond + 500) hourlyJob)
      hourlySchedule = (.ok (), after) ∧
    after.jobs hourlyJob.key = some changed ∧ changed.queued = false ∧
      changed.Waits (exactSecond + 500) := by
  have searches : hourlyRules.Searches fun rule run => run ∈ rule.1 := searches_listedRules _
  have filled : twiceHourly ≠ "" := by decide
  have stored : hourlySchedule.jobs hourlyJob.key = some hourlyJob :=
    Schedule.stored_jobs _ _ _
  obtain ⟨changed, after, executed, found, released, later⟩ :=
    rescheduled_later_iff searches filled .prismaFinish stored (fun _ => by decide) rfl
      (parsedRule_twiceHourly (exactSecond + 500) (by decide))
  refine ⟨changed, after, executed, found, released, later.mpr (Or.inl ⟨?_, by decide⟩)⟩
  exact ⟨exactSecond + 3600000, by decide, by decide, by decide⟩

end Steveo.Scheduler
