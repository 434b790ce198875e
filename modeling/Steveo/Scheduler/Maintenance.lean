import Steveo.Scheduler.Table

/-!
# The maintenance pass

This file models the statements of a maintenance pass in both packages, and a whole pass in which
no one else touches the table.  Everything that a pass reads off the clock it reads at one instant,
and the database answers every statement.

The Prisma scheduler selects rows with raw queries, whose results carry the names of the columns
(`accepted_at`) and not those of the model (`acceptedAt`), and whose counts are big integers.
-/

namespace Steveo.Scheduler

/-- The two packages. -/
inductive Package
  | prisma
  | sequelize
  deriving DecidableEq

/-- The events that a scheduler emits. -/
inductive Notice
  | pending (counts : List (String × Nat))
  | reset (job : JobRow) (nextRunAt : Option Int)
  | lagged (jobs : List JobRow)

/-! ## Conditions -/

/-- A job that is due. -/
def due (now : Int) (row : JobRow) : Bool :=
  !row.queued && columnLt row.nextRunAt (some now) && row.deletedAt.isNone

/-- The Prisma scheduler has its own numbers of minutes. -/
def Prisma.blockedInMinutes : Nat := 5

def Prisma.lagInMinutes : Nat := 6

namespace Package

variable (package : Package) (settings : Settings) (now : Int)

/-- The last instant before which a blocked job was queued. -/
def blockedUntil : Int :=
  match package with
  | .prisma => now - minutes Prisma.blockedInMinutes
  | .sequelize => now - minutes settings.blockedInMinutes

/-- The last instant before which a laggy job was accepted. -/
def laggyUntil : Int :=
  match package with
  | .prisma => now - minutes Prisma.lagInMinutes
  | .sequelize => now - minutes settings.lagInMinutes

/-- The comparison of two columns that the scopes of a package make. -/
def before : Option Int → Option Int → Bool :=
  match package with
  | .prisma => columnLt
  | .sequelize => columnLe

/-- A job that has been queued for long without having been accepted since. -/
def blocked (row : JobRow) : Bool :=
  row.queued && row.deletedAt.isNone &&
    (package.before row.acceptedAt row.lastRunAt || row.acceptedAt.isNone) &&
    columnLe row.lastRunAt (some (package.blockedUntil settings now))

/-- A job that was accepted long ago and has not finished lately. -/
def laggy (row : JobRow) : Bool :=
  row.queued && columnLt row.lastRunAt row.acceptedAt &&
    (package.before row.lastFinishedAt (some (package.laggyUntil settings now)) ||
      row.lastFinishedAt.isNone) &&
    columnLe row.acceptedAt (some (package.laggyUntil settings now))

/-- The blocked jobs that are restarted at once. -/
def safeBlocked (row : JobRow) : Bool :=
  package.blocked settings now row && decide (row.name ∈ settings.jobsSafeToRestart)

/-- The blocked jobs that wait for their next run. -/
def riskyBlocked (row : JobRow) : Bool :=
  package.blocked settings now row && decide (row.name ∈ settings.jobsRiskyToRestart)

/-- The laggy jobs that are restarted at once. -/
def safeLaggy (row : JobRow) : Bool :=
  package.laggy settings now row && decide (row.name ∈ settings.jobsSafeToRestart)

/-- The other laggy jobs.  The Prisma scheduler looks for them only if some jobs are safe. -/
def otherLaggy (row : JobRow) : Bool :=
  package.laggy settings now row && decide (row.name ≠ MAINTENANCE_JOB_NAME) &&
    match package with
    | .prisma =>
        decide (settings.jobsSafeToRestart ≠ []) && decide (row.name ∉ settings.jobsSafeToRestart)
    | .sequelize => true

end Package

/-- A row as a pass reads it: a raw row has no properties under the names of the model. -/
def Package.read (package : Package) (row : JobRow) : JobRow :=
  match package with
  | .prisma =>
      { row with
        nextRunAt := none, lastFinishedAt := none, failedAt := none, repeatInterval := none
        lastRunAt := none, acceptedAt := none, deletedAt := none }
  | .sequelize => row

@[simp] theorem Package.read_id {package : Package} {row : JobRow} :
    (package.read row).id = row.id := by
  cases package <;> rfl

/-- The instant at which a laggy job was accepted, as a pass reads it: the one of a raw row is
undefined, which stands for the present. -/
def Package.accepted (package : Package) (now : Int) (row : JobRow) : Option Int :=
  match package with
  | .prisma => some now
  | .sequelize => row.acceptedAt

/-- Whether a laggy job is reset, since its custom duration has not yet passed. -/
def Package.resetsLaggy (package : Package) (settings : Settings) (now : Int) (row : JobRow) :
    Bool :=
  match settings.customRestart row.name with
  | some restartAfter =>
      columnLt (some now) ((package.accepted now row).map fun accepted => accepted + restartAfter)
  | none => false

/-- Whether a laggy job is reported, since it has no custom duration. -/
def notifiesLaggy (settings : Settings) (row : JobRow) : Bool :=
  (settings.customRestart row.name).isNone

/-! ## Assignments -/

/-- Restarting a blocked job; the Sequelize scheduler clears the failures. -/
def Package.restartBlocked (package : Package) (now : Int) : RowUpdate :=
  match package with
  | .prisma => { nextRunAt := some now, queued := some false }
  | .sequelize => { nextRunAt := some now, queued := some false, failures := some 0 }

/-- Restarting a laggy job. -/
def restartLaggy (now : Int) : RowUpdate :=
  { lastFinishedAt := some now, nextRunAt := some now, queued := some false }

/-- Resetting a job; the Prisma scheduler clears the failures. -/
def Package.reset (package : Package) (nextRunAt : Option Int) : RowUpdate :=
  match package with
  | .prisma => { queued := some false, nextRunAt := nextRunAt, failures := some 0 }
  | .sequelize => { queued := some false, nextRunAt := nextRunAt }

/-- Resetting a row assigns the same columns as resetting its job. -/
theorem Package.apply_reset (package : Package) (nextRunAt : Option Int) (row : JobRow) :
    ((package.reset nextRunAt).apply row).toJob =
      row.toJob.reset (package = .prisma) nextRunAt := by
  cases package <;> rfl

/-- The rows that resetting a job changes: the one of its key, or of its identifier. -/
def Package.resets (package : Package) (job row : JobRow) : Bool :=
  match package with
  | .prisma => row.key = job.key
  | .sequelize => row.id = job.id

/-! ## A pass -/

/-- The table and the events of a pass so far. -/
structure Pass where
  table : JobTable
  notices : List Notice

variable (library : RRuleLibrary) (moment : Moment) (package : Package) (settings : Settings)
  (now : Int)

/-- The next run to which a job is reset, unless it is left alone. -/
def Package.nextReset (job : JobRow) : Option (Option Int) :=
  let job := package.read job
  if package = .sequelize ∧ job.oneOff then none
  else (computeNextRun library moment now job.repeatInterval job.timezone).toOption

/-- A due job whose name is among those that a pass counts. -/
def isPending (row : JobRow) : Bool :=
  due now row && decide (row.name ∈ settings.jobsRiskyToRestart ++ settings.jobsSafeToRestart)

/-- How many jobs of each name are due.  The Prisma scheduler cannot convert a count to a number,
and throws at the first one. -/
def Package.pendingJobs (table : JobTable) : Option Notice :=
  let pending := table.select (isPending settings now)
  if package = .prisma ∧ pending.isEmpty = false then none
  else
    let names := ((pending.map fun row => row.name).dedup).filter fun name => name ≠ "__proto__"
    some (.pending (names.map fun name => (name, pending.countP fun row => row.name = name)))

/-- The event that reports some jobs as lagged, if there are any. -/
def lagged (notifyJobs : List JobRow) : List Notice :=
  if notifyJobs.isEmpty then [] else [.lagged notifyJobs]

namespace Pass

/-- Report how many jobs of each name are due. -/
def begin (table : JobTable) : Option Pass :=
  (package.pendingJobs settings now table).map fun notice => { table := table, notices := [notice] }

/-- Restart the safe blocked jobs, in one statement or in two. -/
def restartSafeBlocked (pass : Pass) : Pass :=
  match package with
  | .prisma =>
      let ids := (pass.table.select (package.safeBlocked settings now)).map fun row => row.id
      { pass with
        table := pass.table.write (fun row => row.id ∈ ids) (package.restartBlocked now) }
  | .sequelize =>
      { pass with
        table := pass.table.write (package.safeBlocked settings now)
          (package.restartBlocked now) }

/-- Reset a job; what goes wrong is logged. -/
def resetJob (pass : Pass) (job : JobRow) : Pass :=
  match package.nextReset library moment now job with
  | none => pass
  | some nextRunAt =>
      { table := pass.table.write (package.resets job) (package.reset nextRunAt)
        notices := pass.notices ++ [.reset (package.read job) nextRunAt] }

/-- Reset the risky blocked jobs. -/
def resetRiskyBlocked (pass : Pass) : Pass :=
  (pass.table.select (package.riskyBlocked settings now)).foldl
    (resetJob library moment package now) pass

/-- Restart the safe laggy jobs, in one statement or in two. -/
def restartSafeLaggy (pass : Pass) : Pass :=
  match package with
  | .prisma =>
      let ids := (pass.table.select (package.safeLaggy settings now)).map fun row => row.id
      { pass with table := pass.table.write (fun row => row.id ∈ ids) (restartLaggy now) }
  | .sequelize =>
      { pass with
        table := pass.table.write (package.safeLaggy settings now) (restartLaggy now) }

/-- Reset the other laggy jobs or report them. -/
def handleOtherLaggy (pass : Pass) : Pass :=
  let laggyJobs := pass.table.select (package.otherLaggy settings now)
  let resetJobs := laggyJobs.filter (package.resetsLaggy settings now)
  let notifyJobs := laggyJobs.filter (notifiesLaggy settings)
  let reset := resetJobs.foldl (resetJob library moment package now) pass
  { reset with notices := reset.notices ++ lagged (notifyJobs.map package.read) }

end Pass

/-- A maintenance pass; what is thrown before the first statement that writes ends it. -/
def maintenance (table : JobTable) : Pass :=
  match Pass.begin package settings now table with
  | none => { table := table, notices := [] }
  | some pass =>
      (((pass.restartSafeBlocked package settings now).resetRiskyBlocked library moment package
        settings now).restartSafeLaggy package settings now).handleOtherLaggy library moment package
          settings now

/-- A pass of the Prisma scheduler gets past its first query if no job is due that it counts. -/
def Package.Counts (table : JobTable) : Prop :=
  package = .prisma → ∀ row ∈ table.rows, isPending settings now row = false

/-! ## What a pass does to a row -/

section Rows

variable {library moment package settings now}

/-- A raw row has no repeat interval, so no next run can be computed from it. -/
@[simp] theorem nextReset_prisma (job : JobRow) :
    Package.prisma.nextReset library moment now job = none := rfl

/-- A pass counts the due jobs, or throws. -/
theorem pendingJobs_isSome {table : JobTable} :
    (package.pendingJobs settings now table).isSome = true ↔
      package.Counts settings now table := by
  have empty : (table.select (isPending settings now)).isEmpty = true ↔
      ∀ row ∈ table.rows, isPending settings now row = false := by
    simp [JobTable.select]
  rw [Package.pendingJobs, Package.Counts, ← empty]
  cases package with
  | prisma => by_cases none : (table.select (isPending settings now)).isEmpty = true <;> simp [none]
  | sequelize => simp

theorem begin_eq_some {table : JobTable} (counts : package.Counts settings now table) :
    ∃ count, Pass.begin package settings now table =
      some { table := table, notices := [.pending count] } := by
  obtain ⟨notice, counted⟩ := Option.isSome_iff_exists.mp (pendingJobs_isSome.mpr counts)
  have begun : Pass.begin package settings now table =
      some { table := table, notices := [notice] } := by
    rw [Pass.begin, counted]
    rfl
  rw [Package.pendingJobs] at counted
  split at counted
  · cases counted
  · obtain rfl := Option.some.inj counted
    exact ⟨_, begun⟩

theorem pendingJobs_eq_none {table : JobTable} (stops : ¬ package.Counts settings now table) :
    package.pendingJobs settings now table = none := by
  rw [← Option.not_isSome_iff_eq_none, pendingJobs_isSome]
  exact stops

theorem begin_eq_none {table : JobTable} (stops : ¬ package.Counts settings now table) :
    Pass.begin package settings now table = none := by
  rw [Pass.begin, pendingJobs_eq_none stops]
  rfl

/-- A pass that cannot count the due jobs does nothing. -/
theorem maintenance_of_not_counts {table : JobTable} (stops : ¬ package.Counts settings now table) :
    maintenance library moment package settings now table = { table := table, notices := [] } := by
  rw [maintenance, begin_eq_none stops]

variable (package) in
/-- Nothing is counted where no job is due. -/
theorem pendingJobs_of_idle {table : JobTable}
    (idle : ∀ row ∈ table.rows, isPending settings now row = false) :
    package.pendingJobs settings now table = some (.pending []) := by
  have none : table.select (isPending settings now) = [] := by
    rw [JobTable.select, List.filter_eq_nil_iff]
    exact fun row present => Bool.eq_false_iff.mp (idle row present)
  rw [Package.pendingJobs, none]
  cases package <;> rfl

/-- A row whose job has been reset, unless it is left alone. -/
def resetRow (library : RRuleLibrary) (moment : Moment) (package : Package) (now : Int)
    (row : JobRow) : JobRow :=
  match package.nextReset library moment now row with
  | none => row
  | some nextRunAt => (package.reset nextRunAt).apply row

@[simp] theorem resetRow_id (row : JobRow) :
    (resetRow library moment package now row).id = row.id := by
  rw [resetRow]
  split <;> rfl

/-- Resetting a job changes the row of its key only, which is the one of its identifier. -/
theorem Package.resets_iff {table : JobTable} {job row : JobRow}
    (listed : table.find job.id = some job) (found : row ∈ table.rows) :
    package.resets job row = true ↔ row.id = job.id := by
  cases package with
  | sequelize => exact decide_eq_true_iff
  | prisma =>
      simp only [Package.resets, decide_eq_true_eq]
      constructor
      · exact fun same => congrArg Prod.fst same
      · intro same
        have located := JobTable.find_of_mem found
        rw [same, listed] at located
        rw [Option.some.inj located]

namespace Pass

theorem rows_restartSafeBlocked (pass : Pass) :
    (pass.restartSafeBlocked package settings now).table.rows = pass.table.rows.map fun row =>
      if package.safeBlocked settings now row then (package.restartBlocked now).apply row
      else row := by
  cases package with
  | sequelize => rfl
  | prisma =>
      refine List.map_congr_left fun row present => ?_
      simp only [decide_eq_true_eq, mem_ids_select present]

theorem rows_restartSafeLaggy (pass : Pass) :
    (pass.restartSafeLaggy package settings now).table.rows = pass.table.rows.map fun row =>
      if package.safeLaggy settings now row then (restartLaggy now).apply row else row := by
  cases package with
  | sequelize => rfl
  | prisma =>
      refine List.map_congr_left fun row present => ?_
      simp only [decide_eq_true_eq, mem_ids_select present]

/-- Resetting a job of the table resets its row. -/
theorem rows_resetJob (pass : Pass) {job : JobRow} (listed : pass.table.find job.id = some job) :
    (pass.resetJob library moment package now job).table.rows = pass.table.rows.map fun row =>
      if row.id = job.id then resetRow library moment package now row else row := by
  have current : ∀ row ∈ pass.table.rows, row.id = job.id → row = job := by
    intro row present same
    have found := JobTable.find_of_mem present
    rw [same, listed] at found
    exact (Option.some.inj found).symm
  rw [resetJob]
  split
  · rename_i left
    refine (List.map_id _).symm.trans (List.map_congr_left fun row present => ?_)
    split
    · rename_i same
      rw [current row present same, resetRow, left]
      rfl
    · rfl
  · rename_i nextRunAt next
    refine List.map_congr_left fun row present => ?_
    simp only [Package.resets_iff listed present]
    split
    · rename_i same
      rw [current row present same, resetRow, next]
    · rfl

/-- Resetting some of the jobs of the table resets their rows. -/
theorem rows_resetJobs {jobs : List JobRow} (distinct : (jobs.map fun job => job.id).Nodup)
    (pass : Pass) (listed : ∀ job ∈ jobs, pass.table.find job.id = some job) :
    (jobs.foldl (resetJob library moment package now) pass).table.rows =
      pass.table.rows.map fun row =>
        if row.id ∈ jobs.map (fun job => job.id) then resetRow library moment package now row
        else row := by
  induction jobs generalizing pass with
  | nil => simp
  | cons job jobs induction =>
      obtain ⟨fresh, distinct⟩ := List.nodup_cons.mp distinct
      obtain ⟨first, others⟩ := List.forall_mem_cons.mp listed
      have reset : (pass.resetJob library moment package now job).table.rows = _ :=
        rows_resetJob pass first
      have later : ∀ other ∈ jobs,
          (pass.resetJob library moment package now job).table.find other.id = some other := by
        intro other member
        have different : other.id ≠ job.id := by
          intro same
          exact fresh (List.mem_map.mpr ⟨other, member, same⟩)
        rw [JobTable.find_of_rows (fun row => by split <;> simp) reset, others other member,
          Option.map_some, if_neg different]
      rw [List.foldl_cons, induction distinct _ later, reset, List.map_map]
      refine List.map_congr_left fun row _ => ?_
      simp only [Function.comp_apply, List.map_cons, List.mem_cons]
      by_cases same : row.id = job.id
      · simp [same, fresh]
      · simp [same]

/-- Resetting the jobs that a condition selects resets their rows. -/
theorem rows_resetSelected (pass : Pass) (condition : JobRow → Bool) :
    ((pass.table.select condition).foldl (resetJob library moment package now) pass).table.rows =
      pass.table.rows.map fun row =>
        if condition row then resetRow library moment package now row else row := by
  have listed : ∀ job ∈ pass.table.select condition, pass.table.find job.id = some job := by
    intro job member
    exact JobTable.find_of_mem (JobTable.mem_select.mp member).1
  refine (rows_resetJobs (JobTable.select_distinct _) pass listed).trans
    (List.map_congr_left fun row present => ?_)
  simp only [mem_ids_select present]

theorem rows_resetRiskyBlocked (pass : Pass) :
    (pass.resetRiskyBlocked library moment package settings now).table.rows =
      pass.table.rows.map fun row =>
        if package.riskyBlocked settings now row then resetRow library moment package now row
        else row :=
  rows_resetSelected pass _

/-- The other laggy jobs that are reset are selected by one condition. -/
theorem select_resetJobs (table : JobTable) :
    (table.select (package.otherLaggy settings now)).filter (package.resetsLaggy settings now) =
      table.select fun row =>
        package.otherLaggy settings now row && package.resetsLaggy settings now row := by
  simp only [JobTable.select, List.filter_filter, Bool.and_comm]

theorem rows_handleOtherLaggy (pass : Pass) :
    (pass.handleOtherLaggy library moment package settings now).table.rows =
      pass.table.rows.map fun row =>
        if package.otherLaggy settings now row && package.resetsLaggy settings now row then
          resetRow library moment package now row
        else row := by
  rw [handleOtherLaggy, select_resetJobs]
  exact rows_resetSelected pass _

/-- The jobs that a list of resets reports as lagged are those reported before. -/
theorem lagged_mem_resetJobs {reported jobs : List JobRow} (pass : Pass) :
    .lagged reported ∈ (jobs.foldl (resetJob library moment package now) pass).notices ↔
      .lagged reported ∈ pass.notices := by
  induction jobs generalizing pass with
  | nil => rfl
  | cons job jobs induction =>
      rw [List.foldl_cons, induction, resetJob]
      split
      · rfl
      · simp

end Pass

end Rows

end Steveo.Scheduler
