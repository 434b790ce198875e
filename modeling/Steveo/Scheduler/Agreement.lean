import Steveo.Scheduler.Recovery

/-!
# The maintenance of the two packages

This file says what a maintenance pass does about each job: a pass treats every row on its own, and
its events follow from the treatments.  The two packages are then compared row by row.
-/

namespace Steveo.Scheduler

variable (library : RRuleLibrary) (moment : Moment) (package : Package) (settings : Settings)
  (now : Int)

/-- What a pass does about a job. -/
inductive Treatment
  | left
  | restartedBlocked
  | resetBlocked (nextRunAt : Option Int)
  | restartedLaggy
  | resetLaggy (nextRunAt : Option Int)
  | reported
  deriving DecidableEq

namespace Treatment

/-- The row of a job after a pass. -/
def apply (treatment : Treatment) (row : JobRow) : JobRow :=
  match treatment with
  | .left | .reported => row
  | .restartedBlocked => (package.restartBlocked now).apply row
  | .restartedLaggy => (restartLaggy now).apply row
  | .resetBlocked nextRunAt | .resetLaggy nextRunAt => (package.reset nextRunAt).apply row

/-- The event for a blocked job that is reset. -/
def blockedNotice (job : JobRow) : Treatment → Option Notice
  | .resetBlocked nextRunAt => some (.reset job nextRunAt)
  | _ => none

/-- The event for a laggy job that is reset. -/
def laggyNotice (job : JobRow) : Treatment → Option Notice
  | .resetLaggy nextRunAt => some (.reset job nextRunAt)
  | _ => none

/-- A job that is reported as lagged. -/
def report (job : JobRow) : Treatment → Option JobRow
  | .reported => some job
  | _ => none

end Treatment

/-- What a pass does about a blocked job. -/
def Package.blockedTreatment (row : JobRow) : Treatment :=
  if row.name ∈ settings.jobsSafeToRestart then .restartedBlocked
  else if row.name ∈ settings.jobsRiskyToRestart then
    (package.nextReset library moment now row).elim .left .resetBlocked
  else .left

/-- What a pass does about a laggy job that it comes to last. -/
def Package.otherTreatment (row : JobRow) : Treatment :=
  if notifiesLaggy settings row then .reported
  else if package.resetsLaggy settings now row then
    (package.nextReset library moment now row).elim .left .resetLaggy
  else .left

/-- What a pass does about the job of a row. -/
def Package.treatment (row : JobRow) : Treatment :=
  if package.blocked settings now row then
    package.blockedTreatment library moment settings now row
  else if package.safeLaggy settings now row then .restartedLaggy
  else if package.otherLaggy settings now row then
    package.otherTreatment library moment settings now row
  else .left

variable {library moment package settings now}

/-! ## Rows -/

section Rows

variable {row : JobRow}

/-- A blocked job is not laggy, in whichever package. -/
theorem not_laggy_of_blocked {other : Package} (blocked : package.blocked settings now row = true) :
    other.laggy settings now row = false := by
  rw [Bool.eq_false_iff]
  intro laggy
  simp only [Package.blocked, Package.laggy, Bool.and_eq_true, Bool.or_eq_true,
    Option.isNone_iff_eq_none] at blocked laggy
  have accepted : ¬ NotAccepted package row := not_accepted_of_columnLt laggy.1.1.2
  exact accepted blocked.1.2

theorem not_otherLaggy_of_not_laggy (unlaggy : package.laggy settings now row = false) :
    package.otherLaggy settings now row = false := by
  simp [Package.otherLaggy, unlaggy]

theorem not_notifies_of_resets (resets : package.resetsLaggy settings now row = true) :
    ¬ notifiesLaggy settings row = true := by
  intro notifies
  rw [notifiesLaggy, Option.isNone_iff_eq_none] at notifies
  rw [Package.resetsLaggy, notifies] at resets
  cases resets

/-- Resetting the row of a job is one treatment of it. -/
theorem resetRow_eq_apply (treatment : Option Int → Treatment)
    (resets : ∀ nextRunAt, (treatment nextRunAt).apply package now row =
      (package.reset nextRunAt).apply row) :
    resetRow library moment package now row =
      ((package.nextReset library moment now row).elim .left treatment).apply package now row := by
  rw [resetRow]
  cases package.nextReset library moment now row with
  | none => rfl
  | some nextRunAt => exact (resets nextRunAt).symm

/-- The restarts of a pass carry out the treatment of a blocked job, and the pass does not come
back to it. -/
theorem restartedRow_of_blocked (blocked : package.blocked settings now row = true) :
    restartedRow library moment package settings now row =
        (package.blockedTreatment library moment settings now row).apply package now row ∧
      package.otherLaggy settings now
        (restartedRow library moment package settings now row) = false := by
  have unlaggy : package.laggy settings now row = false := not_laggy_of_blocked blocked
  have keeps : package.safeLaggy settings now row = false := by
    simp [Package.safeLaggy, unlaggy]
  by_cases safe : row.name ∈ settings.jobsSafeToRestart
  · have released : ((package.restartBlocked now).apply row).queued = false :=
      restartBlocked_released
    have same : restartedRow library moment package settings now row =
        (package.restartBlocked now).apply row := by
      simp only [restartedRow, Package.safeBlocked, Package.riskyBlocked, Package.safeLaggy,
        blocked, safe, decide_true, Bool.true_and, if_true, not_blocked_of_released released,
        not_laggy_of_released released, Bool.false_and, Bool.false_eq_true, if_false]
    rw [same, Package.blockedTreatment, if_pos safe]
    exact ⟨rfl, not_otherLaggy_of_not_laggy (not_laggy_of_released released)⟩
  · have first : package.safeBlocked settings now row = false := by
      simp [Package.safeBlocked, safe]
    by_cases risky : row.name ∈ settings.jobsRiskyToRestart
    · have second : package.riskyBlocked settings now row = true := by
        simp [Package.riskyBlocked, blocked, risky]
      have unlaggy_reset : package.laggy settings now
          (resetRow library moment package now row) = false := by
        cases next : package.nextReset library moment now row with
        | none => rwa [resetRow, next]
        | some nextRunAt =>
            exact not_laggy_of_released (resetRow_released.mpr (Or.inr (by simp [next])))
      have same : restartedRow library moment package settings now row =
          resetRow library moment package now row := by
        simp only [restartedRow, first, second, Bool.false_eq_true, if_false, if_true]
        rw [if_neg (by simp [Package.safeLaggy, unlaggy_reset])]
      refine ⟨?_, by rw [same]; exact not_otherLaggy_of_not_laggy unlaggy_reset⟩
      rw [same, Package.blockedTreatment, if_neg safe, if_pos risky]
      exact resetRow_eq_apply .resetBlocked fun _ => rfl
    · have second : package.riskyBlocked settings now row = false := by
        simp [Package.riskyBlocked, risky]
      have same : restartedRow library moment package settings now row = row := by
        simp only [restartedRow, first, second, keeps, Bool.false_eq_true, if_false]
      rw [same, Package.blockedTreatment, if_neg safe, if_neg risky]
      exact ⟨rfl, not_otherLaggy_of_not_laggy unlaggy⟩

/-- The restarts of a pass leave a job alone that is neither blocked nor safe and laggy. -/
theorem restartedRow_of_not_blocked (unblocked : package.blocked settings now row = false) :
    restartedRow library moment package settings now row =
      if package.safeLaggy settings now row then (restartLaggy now).apply row else row :=
  restartedRow_unless_blocked fun blocked => absurd blocked (Bool.eq_false_iff.mp unblocked)

/-- The row of a job after a whole pass is the one after its treatment. -/
theorem finalRow_eq_apply :
    (if package.otherLaggy settings now (restartedRow library moment package settings now row) &&
        package.resetsLaggy settings now (restartedRow library moment package settings now row) then
      resetRow library moment package now (restartedRow library moment package settings now row)
    else restartedRow library moment package settings now row) =
      (package.treatment library moment settings now row).apply package now row := by
  rw [Package.treatment]
  by_cases blocked : package.blocked settings now row = true
  · rw [if_pos blocked, (restartedRow_of_blocked blocked).2, Bool.false_and,
      if_neg Bool.false_ne_true]
    exact (restartedRow_of_blocked blocked).1
  · rw [if_neg blocked, restartedRow_of_not_blocked (Bool.eq_false_iff.mpr blocked)]
    by_cases safe : package.safeLaggy settings now row = true
    · have released : ((restartLaggy now).apply row).queued = false := rfl
      rw [if_pos safe, if_pos safe,
        not_otherLaggy_of_not_laggy (not_laggy_of_released released), Bool.false_and,
        if_neg Bool.false_ne_true]
      rfl
    · rw [if_neg safe, if_neg safe]
      by_cases laggy : package.otherLaggy settings now row = true
      · rw [if_pos laggy, laggy, Bool.true_and, Package.otherTreatment]
        by_cases resets : package.resetsLaggy settings now row = true
        · rw [if_neg (not_notifies_of_resets resets), if_pos resets, if_pos resets]
          exact resetRow_eq_apply .resetLaggy fun _ => rfl
        · rw [if_neg resets, if_neg resets]
          split <;> rfl
      · rw [if_neg laggy, Bool.eq_false_iff.mpr laggy, Bool.false_and,
          if_neg Bool.false_ne_true]
        rfl

/-- Restarting the safe blocked jobs leaves the other blocked ones as they are. -/
theorem riskyBlocked_restartBlocked :
    package.riskyBlocked settings now
        (if package.safeBlocked settings now row then (package.restartBlocked now).apply row
          else row) =
      (package.riskyBlocked settings now row &&
        decide (row.name ∉ settings.jobsSafeToRestart)) := by
  split
  · rename_i safe
    have listed : row.name ∈ settings.jobsSafeToRestart := by
      rw [Package.safeBlocked, Bool.and_eq_true] at safe
      exact of_decide_eq_true safe.2
    rw [Package.riskyBlocked, not_blocked_of_released restartBlocked_released]
    simp [listed]
  · rename_i other
    rw [Package.safeBlocked, Bool.and_eq_true, decide_eq_true_eq, not_and] at other
    by_cases blocked : package.blocked settings now row = true
    · simp [other blocked]
    · simp [Package.riskyBlocked, blocked]

variable (package settings now) in
/-- The pass has not restarted a job when it comes to the other laggy ones, and finds it laggy. -/
def Package.late (row : JobRow) : Bool :=
  !package.blocked settings now row && !package.safeLaggy settings now row &&
    package.otherLaggy settings now row

theorem otherLaggy_restartedRow :
    package.otherLaggy settings now (restartedRow library moment package settings now row) =
      package.late settings now row := by
  rw [Package.late]
  by_cases blocked : package.blocked settings now row = true
  · rw [(restartedRow_of_blocked blocked).2, blocked]
    rfl
  · have unblocked := Bool.eq_false_iff.mpr blocked
    rw [restartedRow_of_not_blocked unblocked, unblocked]
    by_cases safe : package.safeLaggy settings now row = true
    · have released : ((restartLaggy now).apply row).queued = false := rfl
      rw [if_pos safe, safe]
      exact not_otherLaggy_of_not_laggy (not_laggy_of_released released)
    · rw [if_neg safe, Bool.eq_false_iff.mpr safe]
      rfl

theorem restartedRow_of_late (late : package.late settings now row = true) :
    restartedRow library moment package settings now row = row := by
  simp only [Package.late, Bool.and_eq_true, Bool.not_eq_true'] at late
  rw [restartedRow_of_not_blocked late.1.1, if_neg (by simp [late.1.2])]

theorem treatment_of_late (late : package.late settings now row = true) :
    package.treatment library moment settings now row =
      package.otherTreatment library moment settings now row := by
  simp only [Package.late, Bool.and_eq_true, Bool.not_eq_true'] at late
  rw [Package.treatment, if_neg (by simp [late.1.1]), if_neg (by simp [late.1.2]), if_pos late.2]

theorem treatment_of_not_late (punctual : package.late settings now row = false) :
    package.treatment library moment settings now row =
      if package.blocked settings now row then
        package.blockedTreatment library moment settings now row
      else if package.safeLaggy settings now row then .restartedLaggy
      else .left := by
  rw [Package.treatment]
  split
  · rfl
  · rename_i unblocked
    split
    · rfl
    · rename_i other
      rw [if_neg]
      intro laggy
      simp [Package.late, unblocked, other, laggy] at punctual

theorem quiet_of_not_late (punctual : package.late settings now row = false) (job : JobRow) :
    (package.treatment library moment settings now row).laggyNotice job = none ∧
      (package.treatment library moment settings now row).report job = none := by
  rw [treatment_of_not_late punctual, Package.blockedTreatment]
  split
  · split
    · exact ⟨rfl, rfl⟩
    · split
      · cases package.nextReset library moment now row <;> exact ⟨rfl, rfl⟩
      · exact ⟨rfl, rfl⟩
  · split <;> exact ⟨rfl, rfl⟩

/-- The risky jobs that a pass resets. -/
theorem blockedNotice_treatment (job : JobRow) :
    (package.treatment library moment settings now row).blockedNotice job =
      if package.riskyBlocked settings now row &&
          decide (row.name ∉ settings.jobsSafeToRestart) then
        (package.nextReset library moment now row).map (.reset job)
      else none := by
  by_cases blocked : package.blocked settings now row = true
  · rw [Package.treatment, if_pos blocked, Package.blockedTreatment, Package.riskyBlocked, blocked]
    by_cases safe : row.name ∈ settings.jobsSafeToRestart
    · simp [safe, Treatment.blockedNotice]
    · by_cases risky : row.name ∈ settings.jobsRiskyToRestart
      · simp only [safe, risky, if_true, if_false, not_false_eq_true, decide_true, Bool.and_true]
        cases package.nextReset library moment now row <;> rfl
      · simp [safe, risky, Treatment.blockedNotice]
  · have quiet : package.riskyBlocked settings now row = false := by
      simp [Package.riskyBlocked, blocked]
    rw [quiet, Bool.false_and, if_neg Bool.false_ne_true, Package.treatment, if_neg blocked]
    split
    · rfl
    · split
      · simp only [Package.otherTreatment]
        split
        · rfl
        · split
          · cases package.nextReset library moment now row <;> rfl
          · rfl
      · rfl

/-- The laggy jobs that a pass resets. -/
theorem laggyNotice_treatment (job : JobRow) :
    (package.treatment library moment settings now row).laggyNotice job =
      if package.late settings now row && package.resetsLaggy settings now row then
        (package.nextReset library moment now row).map (.reset job)
      else none := by
  by_cases late : package.late settings now row = true
  · rw [treatment_of_late late, late, Bool.true_and, Package.otherTreatment]
    by_cases resets : package.resetsLaggy settings now row = true
    · rw [if_neg (not_notifies_of_resets resets), if_pos resets, if_pos resets]
      cases package.nextReset library moment now row <;> rfl
    · rw [if_neg resets, if_neg resets]
      split <;> rfl
  · have punctual := Bool.eq_false_iff.mpr late
    rw [punctual, Bool.false_and, if_neg Bool.false_ne_true]
    exact (quiet_of_not_late punctual job).1

/-- The laggy jobs that a pass reports. -/
theorem report_treatment (job : JobRow) :
    (package.treatment library moment settings now row).report job =
      if package.late settings now row && notifiesLaggy settings row then some job else none := by
  by_cases late : package.late settings now row = true
  · rw [treatment_of_late late, late, Bool.true_and, Package.otherTreatment]
    by_cases notifies : notifiesLaggy settings row = true
    · rw [if_pos notifies, if_pos notifies]
      rfl
    · rw [if_neg notifies, if_neg notifies]
      split
      · cases package.nextReset library moment now row <;> rfl
      · rfl
  · have punctual := Bool.eq_false_iff.mpr late
    rw [punctual, Bool.false_and, if_neg Bool.false_ne_true]
    exact (quiet_of_not_late punctual job).2

end Rows

/-! ## A whole pass -/

/-- The elements of a list that a condition selects after a change, if the change keeps them. -/
theorem filter_map_of_kept {α : Type} {items : List α} {change : α → α}
    {condition selected : α → Bool} (same : ∀ item, condition (change item) = selected item)
    (kept : ∀ item, selected item = true → change item = item) :
    (items.map change).filter condition = items.filter selected := by
  have composed : condition ∘ change = selected := funext same
  rw [List.filter_map, composed]
  refine (List.map_congr_left fun item member => ?_).trans (List.map_id _)
  exact kept item (List.mem_filter.mp member).2

namespace Pass

/-- A pass that can count the due jobs treats each row on its own. -/
theorem rows_maintenance {table : JobTable} (counts : package.Counts settings now table) :
    (maintenance library moment package settings now table).table.rows =
      table.rows.map fun row =>
        (package.treatment library moment settings now row).apply package now row := by
  obtain ⟨count, passed⟩ := maintenance_eq library moment counts
  rw [passed, rows_handleOtherLaggy, rows_restarted, List.map_map]
  exact List.map_congr_left fun row _ => finalRow_eq_apply

theorem notices_resetJobs {jobs : List JobRow} (pass : Pass) :
    (jobs.foldl (resetJob library moment package now) pass).notices = pass.notices ++
      jobs.filterMap fun job =>
        (package.nextReset library moment now job).map (.reset (package.read job)) := by
  induction jobs generalizing pass with
  | nil => simp
  | cons job jobs induction =>
      rw [List.foldl_cons, induction, resetJob, List.filterMap_cons]
      cases package.nextReset library moment now job with
      | none => rfl
      | some nextRunAt => simp

variable (library moment package settings now) in
/-- The jobs that a pass reports as lagged. -/
def reports (table : JobTable) : List JobRow :=
  table.rows.filterMap fun row =>
    (package.treatment library moment settings now row).report (package.read row)

variable (library moment package settings now) in
/-- The events for the jobs that a pass resets. -/
def resetNotices (table : JobTable) : List Notice :=
  table.rows.filterMap (fun row =>
      (package.treatment library moment settings now row).blockedNotice (package.read row)) ++
    table.rows.filterMap fun row =>
      (package.treatment library moment settings now row).laggyNotice (package.read row)

variable (library moment) in
/-- The events of a pass follow from its treatments of the rows. -/
theorem notices_maintenance {table : JobTable} {notice : Notice}
    (counted : package.pendingJobs settings now table = some notice) :
    (maintenance library moment package settings now table).notices =
      notice :: (resetNotices library moment package settings now table ++
        lagged (reports library moment package settings now table)) := by
  let pass : Pass := { table := table, notices := [notice] }
  have risky : (pass.restartSafeBlocked package settings now).table.select
      (package.riskyBlocked settings now) = table.rows.filter fun row =>
        package.riskyBlocked settings now row &&
          decide (row.name ∉ settings.jobsSafeToRestart) := by
    rw [JobTable.select, rows_restartSafeBlocked]
    refine filter_map_of_kept (fun row => riskyBlocked_restartBlocked) fun row selected => ?_
    rw [Bool.and_eq_true, decide_eq_true_eq] at selected
    rw [if_neg (by simp [Package.safeBlocked, selected.2])]
  have late : (pass.restarted library moment package settings now).table.select
      (package.otherLaggy settings now) = table.rows.filter (package.late settings now) := by
    rw [JobTable.select, rows_restarted]
    exact filter_map_of_kept (fun row => otherLaggy_restartedRow) fun row => restartedRow_of_late
  have first : (pass.restarted library moment package settings now).notices =
      notice :: table.rows.filterMap fun row =>
        (package.treatment library moment settings now row).blockedNotice (package.read row) := by
    have kept : (pass.restarted library moment package settings now).notices =
        ((pass.restartSafeBlocked package settings now).resetRiskyBlocked library moment package
          settings now).notices := by
      cases package <;> rfl
    have begun : (pass.restartSafeBlocked package settings now).notices = [notice] := by
      cases package <;> rfl
    rw [kept, resetRiskyBlocked, notices_resetJobs, begun, risky, List.filterMap_filter]
    simp only [blockedNotice_treatment, List.singleton_append]
  have whole : maintenance library moment package settings now table =
      (pass.restarted library moment package settings now).handleOtherLaggy library moment package
        settings now := by
    rw [maintenance, begin, counted]
    rfl
  have reported : (table.rows.filter fun row =>
      notifiesLaggy settings row && package.late settings now row).map package.read =
        reports library moment package settings now table := by
    rw [← List.filterMap_eq_map, List.filterMap_filter, reports]
    refine congrArg (List.filterMap · table.rows) (funext fun row => ?_)
    rw [report_treatment, Bool.and_comm]
    rfl
  rw [whole, handleOtherLaggy]
  simp only [late, notices_resetJobs, first, List.filter_filter, List.filterMap_filter, reported,
    Bool.and_comm (package.resetsLaggy settings now _), ← laggyNotice_treatment, List.cons_append,
    resetNotices, List.append_assoc]

end Pass

/-! ## The two packages -/

/-- The columns of a row that the two packages are to leave alike. -/
def JobRow.maintained (row : JobRow) : Bool × Option Int × Option Int × Nat :=
  (row.queued, row.nextRunAt, row.lastFinishedAt, row.failures)

variable (library moment settings now) in
/-- A pass of either package over a table leaves equal rows and emits equal events. -/
def PassesAgree (table : JobTable) : Prop :=
  (∀ id, ((maintenance library moment .prisma settings now table).table.find id).map
      JobRow.maintained =
    ((maintenance library moment .sequelize settings now table).table.find id).map
      JobRow.maintained) ∧
  (maintenance library moment .prisma settings now table).notices =
    (maintenance library moment .sequelize settings now table).notices

variable (library moment settings now) in
/-- Both packages restart the job of a row or neither does, and where only one of them clears its
failures there are none; the Sequelize scheduler does not reset the job, and none of them reports
it. -/
structure Alike (row : JobRow) : Prop where
  blocked : row.name ∈ settings.jobsSafeToRestart →
    Package.prisma.blocked settings now row = Package.sequelize.blocked settings now row ∧
      (Package.prisma.blocked settings now row = true → row.failures = 0)
  laggy : row.name ∈ settings.jobsSafeToRestart →
    Package.prisma.laggy settings now row = Package.sequelize.laggy settings now row
  not_reset : row.name ∉ settings.jobsSafeToRestart →
    (Package.sequelize.nextReset library moment now row).isSome = true →
      (row.name ∈ settings.jobsRiskyToRestart →
        Package.sequelize.blocked settings now row = false) ∧
      (Package.sequelize.resetsLaggy settings now row = true →
        Package.sequelize.otherLaggy settings now row = false)
  not_reported : row.name ∉ settings.jobsSafeToRestart → notifiesLaggy settings row = true →
    Package.prisma.otherLaggy settings now row = false ∧
      Package.sequelize.otherLaggy settings now row = false

section Rows

variable {row : JobRow}

/-- Treating a row releases it, unless the job is left alone or reported. -/
def Treatment.releases : Treatment → Bool
  | .left | .reported => false
  | _ => true

@[simp] theorem Treatment.apply_id (treatment : Treatment) :
    (treatment.apply package now row).id = row.id := by
  cases treatment <;> rfl

theorem Treatment.apply_queued (treatment : Treatment) :
    (treatment.apply package now row).queued = (row.queued && !treatment.releases) := by
  cases treatment <;> cases package <;> simp [Treatment.apply, Treatment.releases,
    Package.restartBlocked, Package.reset, restartLaggy]

/-- Treatments differ by package in the failures only. -/
theorem Treatment.apply_maintained {treatment : Treatment} :
    (treatment.apply .prisma now row).maintained = (treatment.apply .sequelize now row).maintained
      ↔ (treatment.apply .prisma now row).failures =
        (treatment.apply .sequelize now row).failures := by
  cases treatment <;> simp [Treatment.apply, JobRow.maintained, RowUpdate.apply,
    Package.restartBlocked, Package.reset]

/-- No event is about a job that is left alone or restarted. -/
def Treatment.silent : Treatment → Bool
  | .left | .restartedBlocked | .restartedLaggy => true
  | _ => false

theorem Treatment.silent_iff {treatment : Treatment} (job : JobRow) :
    treatment.silent = true ↔ treatment.blockedNotice job = none ∧
      treatment.laggyNotice job = none ∧ treatment.report job = none := by
  cases treatment <;> simp [Treatment.silent, Treatment.blockedNotice, Treatment.laggyNotice,
    Treatment.report]

/-- A pass emits no event about jobs exactly if it treats all of them silently. -/
theorem silent_iff {table : JobTable} :
    (Pass.resetNotices library moment package settings now table = [] ∧
        Pass.reports library moment package settings now table = []) ↔
      ∀ row ∈ table.rows,
        (package.treatment library moment settings now row).silent = true := by
  simp only [Pass.resetNotices, Pass.reports, List.append_eq_nil_iff, List.filterMap_eq_nil_iff]
  constructor
  · rintro ⟨⟨blocked, laggy⟩, reported⟩ row present
    exact (Treatment.silent_iff (package.read row)).mpr
      ⟨blocked row present, laggy row present, reported row present⟩
  · intro silent
    have quiet row present := (Treatment.silent_iff (package.read row)).mp (silent row present)
    exact ⟨⟨fun row present => (quiet row present).1, fun row present => (quiet row present).2.1⟩,
      fun row present => (quiet row present).2.2⟩

/-- A pass releases queued jobs only, and restarts or resets a job as a blocked one or as a laggy
one. -/
theorem treatment_cases :
    (package.treatment library moment settings now row = .left) ∨
      (package.blocked settings now row = true ∧
        (package.treatment library moment settings now row = .restartedBlocked ∨
          ∃ nextRunAt,
            package.treatment library moment settings now row = .resetBlocked nextRunAt)) ∨
      (package.laggy settings now row = true ∧
        (package.treatment library moment settings now row = .restartedLaggy ∨
          package.treatment library moment settings now row = .reported ∨
          ∃ nextRunAt,
            package.treatment library moment settings now row = .resetLaggy nextRunAt)) := by
  rw [Package.treatment]
  by_cases blocked : package.blocked settings now row = true
  · rw [if_pos blocked, Package.blockedTreatment]
    split
    · exact Or.inr (Or.inl ⟨blocked, Or.inl rfl⟩)
    · split
      · cases package.nextReset library moment now row with
        | none => exact Or.inl rfl
        | some nextRunAt => exact Or.inr (Or.inl ⟨blocked, Or.inr ⟨nextRunAt, rfl⟩⟩)
      · exact Or.inl rfl
  · rw [if_neg blocked]
    split
    · rename_i safe
      rw [Package.safeLaggy, Bool.and_eq_true] at safe
      exact Or.inr (Or.inr ⟨safe.1, Or.inl rfl⟩)
    · split
      · rename_i other
        have laggy : package.laggy settings now row = true := by
          simp only [Package.otherLaggy, Bool.and_eq_true] at other
          exact other.1.1
        rw [Package.otherTreatment]
        split
        · exact Or.inr (Or.inr ⟨laggy, Or.inr (Or.inl rfl)⟩)
        · split
          · cases package.nextReset library moment now row with
            | none => exact Or.inl rfl
            | some nextRunAt =>
                exact Or.inr (Or.inr ⟨laggy, Or.inr (Or.inr ⟨nextRunAt, rfl⟩)⟩)
          · exact Or.inl rfl
      · exact Or.inl rfl

/-- The Prisma scheduler announces no reset. -/
theorem resetNotices_prisma (table : JobTable) :
    Pass.resetNotices library moment .prisma settings now table = [] := by
  simp [Pass.resetNotices, blockedNotice_treatment, laggyNotice_treatment]

/-- What the Prisma scheduler reports has no acceptance under the name of the model. -/
theorem acceptedAt_of_reports_prisma {table : JobTable} {job : JobRow}
    (reported : job ∈ Pass.reports library moment .prisma settings now table) :
    job.acceptedAt = none := by
  obtain ⟨row, -, given⟩ := List.mem_filterMap.mp reported
  rw [report_treatment, Option.ite_none_right_eq_some] at given
  obtain rfl := Option.some.inj given.2
  rfl

/-- What the Sequelize scheduler reports has been accepted. -/
theorem acceptedAt_of_reports_sequelize {table : JobTable} {job : JobRow}
    (reported : job ∈ Pass.reports library moment .sequelize settings now table) :
    job.acceptedAt ≠ none := by
  obtain ⟨row, -, given⟩ := List.mem_filterMap.mp reported
  rw [report_treatment, Option.ite_none_right_eq_some] at given
  obtain rfl : row = job := Option.some.inj given.2
  have late := ((Bool.and_eq_true _ _).mp given.1).1
  simp only [Package.late, Package.otherLaggy, Package.laggy, Bool.and_eq_true] at late
  obtain ⟨-, -, accepted, isAccepted, -⟩ := columnLt_iff.mp late.2.1.1.1.1.2
  rw [Option.mem_def.mp isAccepted]
  exact Option.some_ne_none _

/-- The events of both packages are equal only if there are none about jobs. -/
theorem silent_of_notices_eq {table : JobTable}
    (same : lagged (Pass.reports library moment .prisma settings now table) =
      Pass.resetNotices library moment .sequelize settings now table ++
        lagged (Pass.reports library moment .sequelize settings now table)) :
    Pass.reports library moment .prisma settings now table = [] ∧
      Pass.resetNotices library moment .sequelize settings now table = [] ∧
        Pass.reports library moment .sequelize settings now table = [] := by
  have reset_only : ∀ notice ∈ Pass.resetNotices library moment .sequelize settings now table,
      ∃ job nextRunAt, notice = .reset job nextRunAt := by
    intro notice member
    simp only [Pass.resetNotices, List.mem_append, List.mem_filterMap, blockedNotice_treatment,
      laggyNotice_treatment, Option.ite_none_right_eq_some, Option.map_eq_some_iff] at member
    obtain ⟨row, -, -, nextRunAt, -, rfl⟩ | ⟨row, -, -, nextRunAt, -, rfl⟩ := member
    · exact ⟨_, _, rfl⟩
    · exact ⟨_, _, rfl⟩
  have unreset : Pass.resetNotices library moment .sequelize settings now table = [] := by
    refine List.eq_nil_iff_forall_not_mem.mpr fun notice member => ?_
    obtain ⟨job, nextRunAt, rfl⟩ := reset_only notice member
    have listed := same ▸ List.mem_append_left _ member
    rw [lagged] at listed
    split at listed <;> simp at listed
  rw [unreset, List.nil_append] at same
  cases prisma : Pass.reports library moment .prisma settings now table with
  | nil =>
      cases sequelize : Pass.reports library moment .sequelize settings now table with
      | nil => exact ⟨rfl, unreset, rfl⟩
      | cons job jobs => simp [prisma, sequelize, lagged] at same
  | cons job jobs =>
      cases sequelize : Pass.reports library moment .sequelize settings now table with
      | nil => simp [prisma, sequelize, lagged] at same
      | cons other others =>
          rw [prisma, sequelize] at same
          obtain ⟨rfl, -⟩ : job = other ∧ jobs = others := by simpa [lagged] using same
          exact absurd (acceptedAt_of_reports_prisma (prisma ▸ List.mem_cons_self))
            (acceptedAt_of_reports_sequelize (sequelize ▸ List.mem_cons_self))

/-- Silent treatments of a row by the two packages are equal if both release it or neither does. -/
theorem treatment_eq
    (prisma : (Package.prisma.treatment library moment settings now row).silent = true)
    (sequelize : (Package.sequelize.treatment library moment settings now row).silent = true)
    (queued : (((Package.prisma.treatment library moment settings now row).apply .prisma now
        row).queued = ((Package.sequelize.treatment library moment settings now row).apply
          .sequelize now row).queued)) :
    Package.prisma.treatment library moment settings now row =
      Package.sequelize.treatment library moment settings now row := by
  have apart {package other : Package} (blocked : package.blocked settings now row = true) :
      ¬ other.laggy settings now row = true :=
    Bool.eq_false_iff.mp (not_laggy_of_blocked blocked)
  have held {package : Package} (acted : package.blocked settings now row = true ∨
      package.laggy settings now row = true) : row.queued = true := by
    rcases acted with blocked | laggy
    · simp only [Package.blocked, Bool.and_eq_true] at blocked
      exact blocked.1.1.1
    · simp only [Package.laggy, Bool.and_eq_true] at laggy
      exact laggy.1.1.1
  rw [Treatment.apply_queued, Treatment.apply_queued] at queued
  have first := @treatment_cases library moment .prisma settings now row
  have second := @treatment_cases library moment .sequelize settings now row
  grind [Treatment.releases, Treatment.silent]

/-- A pass of the Prisma scheduler emits an event only if no job is due that it counts. -/
theorem idle_of_agree {table : JobTable}
    (agree : PassesAgree library moment settings now table) :
    ∀ row ∈ table.rows, isPending settings now row = false := by
  by_contra due
  have throws : ¬ Package.prisma.Counts settings now table := fun counts => due (counts rfl)
  obtain ⟨notice, counted⟩ := Option.isSome_iff_exists.mp
    (pendingJobs_isSome.mpr (show Package.sequelize.Counts settings now table from nofun))
  have same := agree.2
  rw [maintenance_of_not_counts throws, Pass.notices_maintenance library moment counted] at same
  cases same

variable (library moment settings now) in
/-- Both packages treat a row alike and silently, down to its failures. -/
def TreatedAlike (row : JobRow) : Prop :=
  Package.prisma.treatment library moment settings now row =
      Package.sequelize.treatment library moment settings now row ∧
    (Package.sequelize.treatment library moment settings now row).silent = true ∧
      ((Package.prisma.treatment library moment settings now row).apply .prisma now
        row).failures = ((Package.sequelize.treatment library moment settings now row).apply
          .sequelize now row).failures

/-- Where no job is due, two passes agree exactly if they treat every row alike and silently. -/
theorem passesAgree_iff_treatments {table : JobTable}
    (idle : ∀ row ∈ table.rows, isPending settings now row = false) :
    PassesAgree library moment settings now table ↔
      ∀ row ∈ table.rows, TreatedAlike library moment settings now row := by
  have final (package : Package) (id : String) :
      (maintenance library moment package settings now table).table.find id =
        (table.find id).map fun row =>
          (package.treatment library moment settings now row).apply package now row :=
    JobTable.find_of_rows (fun row => Treatment.apply_id _)
      (Pass.rows_maintenance fun _ => idle) id
  have events (package : Package) :=
    Pass.notices_maintenance library moment (pendingJobs_of_idle package idle)
  rw [PassesAgree, events, events, resetNotices_prisma, List.nil_append, List.cons.injEq]
  constructor
  · rintro ⟨rows, -, notices⟩ row present
    obtain ⟨reported, unreset, unreported⟩ := silent_of_notices_eq notices
    have prisma := silent_iff.mp ⟨resetNotices_prisma table, reported⟩ row present
    have sequelize := silent_iff.mp ⟨unreset, unreported⟩ row present
    have columns := rows row.id
    simp only [final, JobTable.find_of_mem present, Option.map_some, Option.some.injEq] at columns
    exact ⟨treatment_eq prisma sequelize (congrArg Prod.fst columns), sequelize,
      congrArg (fun columns => columns.2.2.2) columns⟩
  · intro alike
    obtain ⟨unreset, unreported⟩ := silent_iff.mpr fun row present => (alike row present).2.1
    obtain ⟨-, reported⟩ := silent_iff.mpr fun row present =>
      (alike row present).1 ▸ (alike row present).2.1
    refine ⟨fun id => ?_, rfl, by rw [reported, unreset, unreported]; rfl⟩
    rw [final, final, Option.map_map, Option.map_map]
    refine Option.map_congr fun row found => ?_
    obtain ⟨same, -, failures⟩ := alike row (JobTable.mem_of_find found).1
    rw [same] at failures
    rw [Function.comp_apply, Function.comp_apply, same]
    exact Treatment.apply_maintained.mpr failures

/-- A safe job is restarted if it is blocked or laggy. -/
theorem treatment_of_safe (safe : row.name ∈ settings.jobsSafeToRestart) :
    package.treatment library moment settings now row =
      if package.blocked settings now row then .restartedBlocked
      else if package.laggy settings now row then .restartedLaggy
      else .left := by
  have selected : package.safeLaggy settings now row = package.laggy settings now row := by
    simp [Package.safeLaggy, safe]
  rw [Package.treatment, Package.blockedTreatment, if_pos safe, selected]
  by_cases laggy : package.laggy settings now row = true
  · rw [if_pos laggy, if_pos laggy]
  · rw [if_neg laggy, if_neg laggy,
      not_otherLaggy_of_not_laggy (Bool.eq_false_iff.mpr laggy), if_neg Bool.false_ne_true]

/-- Another job is reset if it is blocked and risky, and looked at in the end if it is laggy. -/
theorem treatment_of_unsafe (safe : row.name ∉ settings.jobsSafeToRestart) :
    package.treatment library moment settings now row =
      if package.blocked settings now row then
        if row.name ∈ settings.jobsRiskyToRestart then
          (package.nextReset library moment now row).elim .left .resetBlocked
        else .left
      else if package.otherLaggy settings now row then
        package.otherTreatment library moment settings now row
      else .left := by
  have unselected : package.safeLaggy settings now row = false := by
    simp [Package.safeLaggy, safe]
  rw [Package.treatment, Package.blockedTreatment, if_neg safe, unselected,
    if_neg Bool.false_ne_true]

/-- Both packages treat a row alike and silently, down to its failures, exactly under these
conditions. -/
theorem treatedAlike_iff_alike :
    TreatedAlike library moment settings now row ↔ Alike library moment settings now row := by
  have apart {package other : Package} (blocked : package.blocked settings now row = true) :
      other.laggy settings now row = false := not_laggy_of_blocked blocked
  by_cases safe : row.name ∈ settings.jobsSafeToRestart
  · have alike : Alike library moment settings now row ↔
        (Package.prisma.blocked settings now row = Package.sequelize.blocked settings now row ∧
          (Package.prisma.blocked settings now row = true → row.failures = 0)) ∧
        Package.prisma.laggy settings now row = Package.sequelize.laggy settings now row := by
      constructor
      · exact fun alike => ⟨alike.blocked safe, alike.laggy safe⟩
      · exact fun ⟨blocked, laggy⟩ => ⟨fun _ => blocked, fun _ => laggy,
          fun other => absurd safe other, fun other => absurd safe other⟩
    rw [alike, TreatedAlike, treatment_of_safe safe, treatment_of_safe safe]
    grind [Treatment.apply, RowUpdate.apply_failures, Package.restartBlocked, Treatment.silent]
  · have alike : Alike library moment settings now row ↔
        ((Package.sequelize.nextReset library moment now row).isSome = true →
          (row.name ∈ settings.jobsRiskyToRestart →
            Package.sequelize.blocked settings now row = false) ∧
          (Package.sequelize.resetsLaggy settings now row = true →
            Package.sequelize.otherLaggy settings now row = false)) ∧
        (notifiesLaggy settings row = true → Package.prisma.otherLaggy settings now row = false ∧
          Package.sequelize.otherLaggy settings now row = false) := by
      constructor
      · exact fun alike => ⟨alike.not_reset safe, alike.not_reported safe⟩
      · exact fun ⟨unreset, unreported⟩ => ⟨fun other => absurd other safe,
          fun other => absurd other safe, fun _ => unreset, fun _ => unreported⟩
    have quiet {package other : Package} (blocked : package.blocked settings now row = true) :
        other.otherLaggy settings now row = false := not_otherLaggy_of_not_laggy (apart blocked)
    have resets : Package.sequelize.resetsLaggy settings now row = true →
        ¬ notifiesLaggy settings row = true := not_notifies_of_resets
    rw [alike, TreatedAlike, treatment_of_unsafe safe, treatment_of_unsafe safe,
      Package.otherTreatment, Package.otherTreatment, nextReset_prisma]
    cases next : Package.sequelize.nextReset library moment now row with
    | none => grind [Treatment.apply, Treatment.silent]
    | some nextRunAt => grind [Treatment.apply, Treatment.silent]

/-- A pass of either package leaves equal rows and emits equal events exactly if no job is due that
a pass counts, both packages restart the same jobs, of which those that only one of them clears of
its failures have none, and no pass resets or reports a job. -/
theorem passesAgree_iff (library : RRuleLibrary) (moment : Moment) (settings : Settings)
    (now : Int) (table : JobTable) :
    PassesAgree library moment settings now table ↔
      ∀ row ∈ table.rows,
        isPending settings now row = false ∧ Alike library moment settings now row := by
  constructor
  · intro agree row present
    have idle := idle_of_agree agree
    exact ⟨idle row present,
      treatedAlike_iff_alike.mp ((passesAgree_iff_treatments idle).mp agree row present)⟩
  · intro conditions
    have idle := fun row present => (conditions row present).1
    exact (passesAgree_iff_treatments idle).mpr fun row present =>
      treatedAlike_iff_alike.mpr (conditions row present).2

/-- Both packages find the same blocked jobs exactly if their numbers of minutes do not matter and
no job was accepted at the instant at which it was queued. -/
theorem blocked_eq_iff : Package.prisma.blocked settings now row =
      Package.sequelize.blocked settings now row ↔
    (row.queued = true → row.deletedAt = none → ∀ run ∈ row.lastRunAt,
      (∀ accepted ∈ row.acceptedAt, accepted ≤ run) →
      ((run ≤ now - minutes Prisma.blockedInMinutes ∧ row.acceptedAt ≠ some run) ↔
        run ≤ now - minutes settings.blockedInMinutes)) := by
  rw [Bool.eq_iff_iff]
  simp only [Package.blocked, Package.before, Package.blockedUntil, Bool.and_eq_true,
    Bool.or_eq_true, Option.isNone_iff_eq_none]
  cases ran : row.lastRunAt with
  | none => simp
  | some run =>
      cases accepted : row.acceptedAt with
      | none => simp
      | some instant =>
          simp only [columnLt_iff, columnLe_iff, Option.mem_some_iff, exists_eq_left', forall_eq',
            reduceCtorEq, or_false]
          grind

/-- Both packages find the same laggy jobs exactly if their numbers of minutes do not matter and no
job finished at the instant from which on it counts. -/
theorem laggy_eq_iff : Package.prisma.laggy settings now row =
      Package.sequelize.laggy settings now row ↔
    (row.queued = true → ∀ run ∈ row.lastRunAt, ∀ accepted ∈ row.acceptedAt, run < accepted →
      ((accepted ≤ now - minutes Prisma.lagInMinutes ∧
          ∀ finished ∈ row.lastFinishedAt, finished < now - minutes Prisma.lagInMinutes) ↔
        (accepted ≤ now - minutes settings.lagInMinutes ∧
          ∀ finished ∈ row.lastFinishedAt, finished ≤ now - minutes settings.lagInMinutes))) := by
  rw [Bool.eq_iff_iff]
  simp only [Package.laggy, Package.before, Package.laggyUntil, Bool.and_eq_true,
    Bool.or_eq_true, Option.isNone_iff_eq_none]
  cases ran : row.lastRunAt with
  | none => simp
  | some run =>
      cases accepted : row.acceptedAt with
      | none => simp
      | some instant =>
          cases finish : row.lastFinishedAt with
          | none =>
              simp only [columnLt_iff, columnLe_iff, Option.mem_some_iff, exists_eq_left',
                forall_eq']
              grind
          | some finished =>
              simp only [columnLt_iff, columnLe_iff, Option.mem_some_iff, exists_eq_left',
                forall_eq', reduceCtorEq, or_false]
              grind

end Rows

/-! ## A job that was queued seven minutes ago -/

/-- A safe job that was never accepted. -/
def mailRow : JobRow where
  toJob := hourlyJob
  name := "mail"
  lastRunAt := some (exactSecond - minutes 7)
  acceptedAt := none
  deletedAt := none

/-- With the default numbers of minutes the Prisma scheduler restarts the job and the Sequelize
scheduler leaves it alone. -/
theorem mail_treated_apart : ¬ PassesAgree hourlyRules universalTime reportSettings exactSecond
    (JobTable.empty.insert mailRow) := by
  intro agree
  have same := (passesAgree_iff_treatments (idle_of_agree agree)).mp agree mailRow
    (List.mem_singleton_self _)
  exact absurd same.1 (by decide)

end Steveo.Scheduler
