import Steveo.Scheduler.Maintenance

/-!
# Stuck jobs

This file says which of the jobs that have been stuck for long a maintenance pass puts back or
reports, and which it leaves behind.
-/

namespace Steveo.Scheduler

variable (library : RRuleLibrary) (moment : Moment) (package : Package) (settings : Settings)
  (now : Int)

/-- A job of the configuration that was queued long ago and since then has not been accepted, or
was accepted long ago and has not finished since. -/
structure Stuck (row : JobRow) : Prop where
  queued : row.queued = true
  present : row.deletedAt = none
  ordinary : row.name ≠ MAINTENANCE_JOB_NAME
  listed : row.name ∈ settings.jobsSafeToRestart ∨ row.name ∈ settings.jobsRiskyToRestart ∨
    row.name ∈ settings.jobsCustomRestart.map Prod.fst
  waiting : ∃ run ∈ row.lastRunAt, run < package.blockedUntil settings now ∧
    ((∀ accepted ∈ row.acceptedAt, accepted ≤ run) ∨
      ∃ accepted ∈ row.acceptedAt, accepted < package.laggyUntil settings now ∧
        ∀ finished ∈ row.lastFinishedAt, finished ≤ accepted)

/-- The pass has reported the job of an identifier as lagged. -/
def Pass.Reported (pass : Pass) (id : String) : Prop :=
  ∃ jobs, .lagged jobs ∈ pass.notices ∧ id ∈ jobs.map fun job => job.id

/-- The pass has released the row of an identifier or reported its job as lagged. -/
def Pass.Recovered (pass : Pass) (id : String) : Prop :=
  (∃ row ∈ pass.table.find id, row.queued = false) ∨ pass.Reported id

/-- The row has not been accepted since it was queued. -/
def NotAccepted (row : JobRow) : Prop :=
  package.before row.acceptedAt row.lastRunAt = true ∨ row.acceptedAt = none

/-- The job is safe, or it is risky and its next run is known. -/
def BlockedRecoverable (row : JobRow) : Prop :=
  row.name ∈ settings.jobsSafeToRestart ∨
    (row.name ∈ settings.jobsRiskyToRestart ∧
      (package.nextReset library moment now row).isSome = true)

/-- The job is safe, or the pass looks for other laggy jobs and either reports this one or resets
it to a known next run. -/
def LaggyRecoverable (row : JobRow) : Prop :=
  row.name ∈ settings.jobsSafeToRestart ∨
    ((package = .prisma → settings.jobsSafeToRestart ≠ []) ∧
      (notifiesLaggy settings row = true ∨
        (package.resetsLaggy settings now row = true ∧
          (package.nextReset library moment now row).isSome = true)))

/-- The pass has a way to recover the job of a row. -/
def Recoverable (row : JobRow) : Prop :=
  (NotAccepted package row ∧ BlockedRecoverable library moment package settings now row) ∨
    (columnLt row.lastRunAt row.acceptedAt = true ∧
      LaggyRecoverable library moment package settings now row)

variable {library moment package settings now}

/-! ## Blocked and laggy rows -/

section Rows

variable {row : JobRow}

theorem Package.blocked_iff_of_stuck (stuck : Stuck package settings now row) :
    package.blocked settings now row = true ↔ NotAccepted package row := by
  obtain ⟨run, same, early, -⟩ := stuck.waiting
  have before : columnLe row.lastRunAt (some (package.blockedUntil settings now)) = true :=
    columnLe_iff.mpr ⟨run, same, _, rfl, le_of_lt early⟩
  simp only [Package.blocked, stuck.queued, stuck.present, before, NotAccepted, Bool.true_and,
    Bool.and_true, Option.isNone_none, Bool.or_eq_true, Option.isNone_iff_eq_none]

theorem Package.laggy_iff_of_stuck (stuck : Stuck package settings now row) :
    package.laggy settings now row = true ↔ columnLt row.lastRunAt row.acceptedAt = true := by
  obtain ⟨run, same, -, waits⟩ := stuck.waiting
  constructor
  · intro laggy
    simp only [Package.laggy, Bool.and_eq_true] at laggy
    exact laggy.1.1.2
  · intro since
    obtain ⟨first, isFirst, accepted, isAccepted, later⟩ := columnLt_iff.mp since
    obtain rfl := Option.mem_unique same isFirst
    have old : accepted < package.laggyUntil settings now ∧
        ∀ finished ∈ row.lastFinishedAt, finished ≤ accepted := by
      rcases waits with unaccepted | ⟨other, isOther, old, unfinished⟩
      · exact absurd later (not_lt.mpr (unaccepted accepted isAccepted))
      · obtain rfl := Option.mem_unique isAccepted isOther
        exact ⟨old, unfinished⟩
    have unfinished : (package.before row.lastFinishedAt
        (some (package.laggyUntil settings now)) || row.lastFinishedAt.isNone) = true := by
      rw [Bool.or_eq_true, Option.isNone_iff_eq_none]
      cases finish : row.lastFinishedAt with
      | none => exact Or.inr rfl
      | some finished =>
          have early : finished < package.laggyUntil settings now :=
            lt_of_le_of_lt (old.2 finished finish) old.1
          left
          cases package with
          | prisma => exact columnLt_iff.mpr ⟨finished, rfl, _, rfl, early⟩
          | sequelize => exact columnLe_iff.mpr ⟨finished, rfl, _, rfl, le_of_lt early⟩
    have before : columnLe row.acceptedAt (some (package.laggyUntil settings now)) = true :=
      columnLe_iff.mpr ⟨accepted, isAccepted, _, rfl, le_of_lt old.1⟩
    simp only [Package.laggy, stuck.queued, since, unfinished, before, Bool.and_true]

/-- A row that has been accepted since it was queued counts as accepted. -/
theorem not_accepted_of_columnLt (since : columnLt row.lastRunAt row.acceptedAt = true) :
    ¬ NotAccepted package row := by
  obtain ⟨run, isRun, accepted, isAccepted, later⟩ := columnLt_iff.mp since
  rintro (early | null)
  · cases package with
    | prisma =>
        obtain ⟨first, isFirst, second, isSecond, before⟩ := columnLt_iff.mp early
        obtain rfl := Option.mem_unique isAccepted isFirst
        obtain rfl := Option.mem_unique isRun isSecond
        exact lt_asymm later before
    | sequelize =>
        obtain ⟨first, isFirst, second, isSecond, before⟩ := columnLe_iff.mp early
        obtain rfl := Option.mem_unique isAccepted isFirst
        obtain rfl := Option.mem_unique isRun isSecond
        exact not_lt.mpr before later
  · rw [null] at isAccepted
    cases isAccepted

/-! ## The restarts of a pass -/

theorem not_blocked_of_released (released : row.queued = false) :
    package.blocked settings now row = false := by
  simp [Package.blocked, released]

theorem not_laggy_of_released (released : row.queued = false) :
    package.laggy settings now row = false := by
  simp [Package.laggy, released]

theorem resetRow_released : (resetRow library moment package now row).queued = false ↔
    row.queued = false ∨ (package.nextReset library moment now row).isSome = true := by
  rw [resetRow]
  split
  · rename_i left
    simp [left]
  · rename_i nextRunAt next
    cases package <;> simp [next, Package.reset]

variable (library moment package settings now) in
/-- A row after the blocked jobs and the safe laggy ones have been dealt with. -/
def restartedRow (row : JobRow) : JobRow :=
  let blocked := if package.safeBlocked settings now row then
    (package.restartBlocked now).apply row else row
  let risky := if package.riskyBlocked settings now blocked then
    resetRow library moment package now blocked else blocked
  if package.safeLaggy settings now risky then (restartLaggy now).apply risky else risky

theorem restartedRow_id (row : JobRow) :
    (restartedRow library moment package settings now row).id = row.id := by
  simp only [restartedRow]
  repeat' split
  all_goals simp

theorem restartBlocked_released : ((package.restartBlocked now).apply row).queued = false := by
  cases package <;> rfl

theorem restartedRow_of_released (released : row.queued = false) :
    restartedRow library moment package settings now row = row := by
  simp only [restartedRow, Package.safeBlocked, Package.riskyBlocked, Package.safeLaggy,
    not_blocked_of_released released, not_laggy_of_released released, Bool.false_and,
    Bool.false_eq_true, if_false]

/-- A blocked job that can be recovered is released. -/
theorem restartedRow_blocked (blocked : package.blocked settings now row = true)
    (recoverable : BlockedRecoverable library moment package settings now row) :
    (restartedRow library moment package settings now row).queued = false := by
  by_cases safe : row.name ∈ settings.jobsSafeToRestart
  · have selected : package.safeBlocked settings now row = true := by
      simp [Package.safeBlocked, blocked, safe]
    have released : ((package.restartBlocked now).apply row).queued = false :=
      restartBlocked_released
    have same : restartedRow library moment package settings now row =
        restartedRow library moment package settings now
          ((package.restartBlocked now).apply row) := by
      conv_rhs => rw [restartedRow_of_released released]
      simp only [restartedRow, selected, if_true, Package.riskyBlocked, Package.safeLaggy,
        not_blocked_of_released released, not_laggy_of_released released, Bool.false_and,
        Bool.false_eq_true, if_false]
    rw [same, restartedRow_of_released released, released]
  · obtain ⟨risky, known⟩ := recoverable.resolve_left safe
    have released : (resetRow library moment package now row).queued = false :=
      resetRow_released.mpr (Or.inr known)
    simp only [restartedRow, Package.safeBlocked, Package.riskyBlocked, Package.safeLaggy, safe,
      risky, blocked, not_laggy_of_released released, decide_true, decide_false, Bool.and_false,
      Bool.true_and, Bool.false_and, Bool.false_eq_true, if_false, if_true, released]

/-- A blocked job that cannot be recovered is left alone, and so is a job that is not blocked. -/
theorem restartedRow_unless_blocked
    (left : package.blocked settings now row = true →
      ¬ BlockedRecoverable library moment package settings now row) :
    restartedRow library moment package settings now row =
      if package.safeLaggy settings now row then (restartLaggy now).apply row else row := by
  have unsafe_blocked : package.safeBlocked settings now row = false := by
    rw [Package.safeBlocked, Bool.and_eq_false_imp, decide_eq_false_iff_not]
    exact fun blocked safe => left blocked (Or.inl safe)
  have kept : (if package.riskyBlocked settings now row then
      resetRow library moment package now row else row) = row := by
    split
    · rename_i risky
      obtain ⟨blocked, risky⟩ := (Bool.and_eq_true _ _).mp risky
      have unknown : package.nextReset library moment now row = none := by
        rw [← Option.not_isSome_iff_eq_none]
        exact fun known => left blocked (Or.inr ⟨of_decide_eq_true risky, known⟩)
      rw [resetRow, unknown]
    · rfl
  simp only [restartedRow, unsafe_blocked, Bool.false_eq_true, if_false, kept]

end Rows

/-! ## A whole pass -/

namespace Pass

variable (library moment package settings now) in
/-- A pass that has counted the due jobs, up to the point where it looks for the other laggy
jobs. -/
def restarted (pass : Pass) : Pass :=
  ((pass.restartSafeBlocked package settings now).resetRiskyBlocked library moment package settings
    now).restartSafeLaggy package settings now

theorem rows_restarted (pass : Pass) :
    (pass.restarted library moment package settings now).table.rows =
      pass.table.rows.map (restartedRow library moment package settings now) := by
  rw [restarted, rows_restartSafeLaggy, rows_resetRiskyBlocked, rows_restartSafeBlocked,
    List.map_map, List.map_map]
  rfl

theorem find_restarted (pass : Pass) (id : String) :
    (pass.restarted library moment package settings now).table.find id =
      (pass.table.find id).map (restartedRow library moment package settings now) :=
  JobTable.find_of_rows restartedRow_id (rows_restarted pass) id

/-- Restarting jobs does not report any. -/
theorem lagged_mem_restarted {pass : Pass} {jobs : List JobRow} :
    .lagged jobs ∈ (pass.restarted library moment package settings now).notices ↔
      .lagged jobs ∈ pass.notices := by
  have kept : (pass.restarted library moment package settings now).notices =
      ((pass.restartSafeBlocked package settings now).resetRiskyBlocked library moment package
        settings now).notices := by
    cases package <;> rfl
  have first : (pass.restartSafeBlocked package settings now).notices = pass.notices := by
    cases package <;> rfl
  rw [kept, resetRiskyBlocked, lagged_mem_resetJobs, first]

variable (library moment) in
/-- A pass that can count the due jobs goes through all of its statements. -/
theorem maintenance_eq {table : JobTable} (counts : package.Counts settings now table) :
    ∃ count, maintenance library moment package settings now table =
      (restarted library moment package settings now
        { table := table, notices := [.pending count] }).handleOtherLaggy library moment package
          settings now := by
  obtain ⟨count, begun⟩ := begin_eq_some counts
  refine ⟨count, ?_⟩
  rw [maintenance, begun]
  rfl

/-- The jobs reported in the end are the other laggy ones without a custom duration. -/
theorem reported_handleOtherLaggy {pass : Pass} (silent : ∀ jobs, .lagged jobs ∉ pass.notices)
    (id : String) :
    (pass.handleOtherLaggy library moment package settings now).Reported id ↔
      ∃ row ∈ pass.table.find id, package.otherLaggy settings now row = true ∧
        notifiesLaggy settings row = true := by
  obtain ⟨listed, isListed⟩ : ∃ listed, listed = (pass.table.select
      (package.otherLaggy settings now)).filter (notifiesLaggy settings) := ⟨_, rfl⟩
  have notices : ∀ jobs, .lagged jobs ∈
      (pass.handleOtherLaggy library moment package settings now).notices ↔
        jobs ≠ [] ∧ jobs = listed.map package.read := by
    intro jobs
    simp only [handleOtherLaggy, List.mem_append, lagged_mem_resetJobs, silent jobs, false_or,
      lagged, ← isListed]
    cases listed with
    | nil => simp
    | cons job others =>
        simp only [List.map_cons, List.isEmpty_cons, Bool.false_eq_true, if_false,
          List.mem_singleton, Notice.lagged.injEq]
        constructor
        · intro same
          exact ⟨same ▸ List.cons_ne_nil _ _, same⟩
        · exact And.right
  constructor
  · rintro ⟨jobs, reported, member⟩
    rw [((notices jobs).mp reported).2, isListed, List.map_map] at member
    obtain ⟨row, selected, rfl⟩ := List.mem_map.mp member
    rw [Function.comp_apply, Package.read_id]
    obtain ⟨selected, notified⟩ := List.mem_filter.mp selected
    obtain ⟨present, laggy⟩ := JobTable.mem_select.mp selected
    exact ⟨row, JobTable.find_of_mem present, laggy, notified⟩
  · rintro ⟨row, found, laggy, notified⟩
    obtain ⟨present, rfl⟩ := JobTable.mem_of_find found
    have member : row ∈ listed := isListed ▸
      List.mem_filter.mpr ⟨JobTable.mem_select.mpr ⟨present, laggy⟩, notified⟩
    refine ⟨listed.map package.read, (notices _).mpr ⟨?_, rfl⟩, ?_⟩
    · exact List.ne_nil_of_mem (List.mem_map_of_mem member)
    · rw [List.map_map]
      exact List.mem_map.mpr ⟨row, member, Package.read_id⟩

/-- Handling the other laggy jobs releases one of them by resetting it. -/
theorem released_handleOtherLaggy {pass : Pass} {id : String} {row : JobRow}
    (found : pass.table.find id = some row) :
    (∃ final ∈ (pass.handleOtherLaggy library moment package settings now).table.find id,
        final.queued = false) ↔
      row.queued = false ∨ (package.otherLaggy settings now row = true ∧
        package.resetsLaggy settings now row = true ∧
          (package.nextReset library moment now row).isSome = true) := by
  have final : (pass.handleOtherLaggy library moment package settings now).table.find id = _ :=
    JobTable.find_of_rows (fun row => by split <;> simp) (rows_handleOtherLaggy pass) id
  rw [found, Option.map_some] at final
  rw [final]
  simp only [Option.mem_some_iff, exists_eq_left', Bool.and_eq_true]
  split
  · rename_i reset
    rw [resetRow_released]
    simp only [reset, true_and]
  · rename_i kept
    constructor
    · exact Or.inl
    · rintro (released | ⟨laggy, resets, -⟩)
      · exact released
      · exact absurd ⟨laggy, resets⟩ kept

end Pass

/-- A pass that can count the due jobs recovers a job exactly when it has released its row by the
time it looks for the other laggy jobs, or then finds it laggy and reports or resets it. -/
theorem recovered_iff {table : JobTable} {row : JobRow} (counts : package.Counts settings now table)
    (present : row ∈ table.rows) :
    (maintenance library moment package settings now table).Recovered row.id ↔
      (restartedRow library moment package settings now row).queued = false ∨
        (package.otherLaggy settings now
            (restartedRow library moment package settings now row) = true ∧
          (notifiesLaggy settings (restartedRow library moment package settings now row) = true ∨
            (package.resetsLaggy settings now
                (restartedRow library moment package settings now row) = true ∧
              (package.nextReset library moment now
                (restartedRow library moment package settings now row)).isSome = true))) := by
  obtain ⟨count, passed⟩ := Pass.maintenance_eq library moment counts
  let counted : Pass := { table := table, notices := [.pending count] }
  let restarted := restartedRow library moment package settings now row
  have found : (counted.restarted library moment package settings now).table.find row.id =
      some restarted := by
    rw [Pass.find_restarted, JobTable.find_of_mem present]
    rfl
  have silent : ∀ jobs, .lagged jobs ∉
      (counted.restarted library moment package settings now).notices := by
    intro jobs
    rw [Pass.lagged_mem_restarted]
    simp [counted]
  have reported : ((counted.restarted library moment package settings now).handleOtherLaggy library
      moment package settings now).Reported row.id ↔
        package.otherLaggy settings now restarted = true ∧
          notifiesLaggy settings restarted = true := by
    refine (Pass.reported_handleOtherLaggy silent row.id).trans ?_
    rw [found]
    simp
  rw [passed, Pass.Recovered, Pass.released_handleOtherLaggy found]
  refine (or_congr_right reported).trans ?_
  tauto

theorem otherLaggy_iff {row : JobRow} (ordinary : row.name ≠ MAINTENANCE_JOB_NAME)
    (other : row.name ∉ settings.jobsSafeToRestart) :
    package.otherLaggy settings now row = true ↔ package.laggy settings now row = true ∧
      (package = .prisma → settings.jobsSafeToRestart ≠ []) := by
  cases package with
  | prisma => simp [Package.otherLaggy, ordinary, other]
  | sequelize => simp [Package.otherLaggy, ordinary]

/-- A pass that can count the due jobs recovers a stuck job exactly if it has a way to. -/
theorem recovered_iff_of_counts {table : JobTable} {row : JobRow}
    (counts : package.Counts settings now table) (present : row ∈ table.rows)
    (stuck : Stuck package settings now row) :
    (maintenance library moment package settings now table).Recovered row.id ↔
      Recoverable library moment package settings now row := by
  rw [recovered_iff counts present]
  by_cases since : columnLt row.lastRunAt row.acceptedAt = true
  · have laggy := (Package.laggy_iff_of_stuck stuck).mpr since
    have accepted : ¬ NotAccepted package row := not_accepted_of_columnLt since
    have unblocked : ¬ package.blocked settings now row = true :=
      fun blocked => accepted ((Package.blocked_iff_of_stuck stuck).mp blocked)
    have restarted : restartedRow library moment package settings now row = _ :=
      restartedRow_unless_blocked fun blocked => absurd blocked unblocked
    simp only [Recoverable, accepted, false_and, since, true_and, false_or]
    by_cases safe : row.name ∈ settings.jobsSafeToRestart
    · have selected : package.safeLaggy settings now row = true := by
        simp [Package.safeLaggy, laggy, safe]
      rw [restarted, if_pos selected]
      exact iff_of_true (Or.inl rfl) (Or.inl safe)
    · have left : ¬ package.safeLaggy settings now row = true := by
        simp [Package.safeLaggy, safe]
      rw [restarted, if_neg left, stuck.queued, otherLaggy_iff stuck.ordinary safe]
      simp only [Bool.true_eq_false, false_or, laggy, true_and, LaggyRecoverable, safe]
  · have unlaggy : ¬ package.laggy settings now row = true :=
      fun laggy => since ((Package.laggy_iff_of_stuck stuck).mp laggy)
    simp only [Recoverable, since, Bool.false_eq_true, false_and, or_false]
    by_cases recoverable : NotAccepted package row ∧
        BlockedRecoverable library moment package settings now row
    · have blocked := (Package.blocked_iff_of_stuck stuck).mpr recoverable.1
      exact iff_of_true (Or.inl (restartedRow_blocked blocked recoverable.2)) recoverable
    · refine iff_of_false ?_ recoverable
      have restarted : restartedRow library moment package settings now row = _ :=
        restartedRow_unless_blocked fun blocked possible =>
          recoverable ⟨(Package.blocked_iff_of_stuck stuck).mp blocked, possible⟩
      have left : ¬ package.safeLaggy settings now row = true := by
        simp [Package.safeLaggy, unlaggy]
      have quiet : ¬ package.otherLaggy settings now row = true := by
        simp [Package.otherLaggy, unlaggy]
      rw [restarted, if_neg left, stuck.queued]
      simp [quiet]

/-- A pass recovers a stuck job exactly if it can count the due jobs and has a way to recover the
stuck one. -/
theorem recovered_iff_recoverable {table : JobTable} {row : JobRow} (present : row ∈ table.rows)
    (stuck : Stuck package settings now row) :
    (maintenance library moment package settings now table).Recovered row.id ↔
      package.Counts settings now table ∧
        Recoverable library moment package settings now row := by
  by_cases counts : package.Counts settings now table
  · simp only [recovered_iff_of_counts counts present stuck, counts, true_and]
  · refine iff_of_false ?_ fun possible => counts possible.1
    rw [maintenance_of_not_counts counts]
    rintro (⟨final, found, released⟩ | ⟨jobs, reported, -⟩)
    · obtain rfl := Option.mem_unique (JobTable.find_of_mem present) found
      rw [stuck.queued] at released
      cases released
    · cases reported

/-- One pass recovers all stuck jobs exactly if it can count the due jobs and has a way to recover
each of the stuck ones. -/
theorem recovers_iff (library : RRuleLibrary) (moment : Moment) (package : Package)
    (settings : Settings) (now : Int) (table : JobTable) :
    (∀ row ∈ table.rows, Stuck package settings now row →
      (maintenance library moment package settings now table).Recovered row.id) ↔
    ∀ row ∈ table.rows, Stuck package settings now row →
      package.Counts settings now table ∧
        Recoverable library moment package settings now row :=
  forall₃_congr fun _ present stuck => recovered_iff_recoverable present stuck

/-! ## A job with a custom duration -/

/-- A job that is to be restarted after an hour. -/
def reportSettings : Settings where
  jobsSafeToRestart := ["mail"]
  jobsRiskyToRestart := []
  jobsCustomRestart := [("report", minutes 60)]
  tasks := ["mail", "report"]
  wrapped := ["mail", "report"]

/-- It was queued an hour before the exact second and never accepted. -/
def reportRow : JobRow where
  toJob := hourlyJob
  name := "report"
  lastRunAt := some (exactSecond - minutes 60)
  acceptedAt := none
  deletedAt := none

/-- A job with a custom duration that is queued and never accepted is stuck in both packages, and
no pass recovers it. -/
theorem report_left_behind : [Package.prisma, .sequelize].Forall fun package =>
    ∃ table : JobTable, ∃ row ∈ table.rows,
      Stuck package reportSettings exactSecond row ∧
        ¬ (maintenance hourlyRules universalTime package reportSettings exactSecond
          table).Recovered row.id := by
  refine List.forall_iff_forall_mem.mpr fun package _ => ?_
  have stuck : Stuck package reportSettings exactSecond reportRow := by
    cases package <;>
      exact ⟨rfl, rfl, by decide, by decide, _, rfl, by decide, Or.inl fun _ => nofun⟩
  refine ⟨JobTable.empty.insert reportRow, reportRow, List.mem_singleton_self _, stuck, ?_⟩
  rw [recovered_iff_recoverable (List.mem_singleton_self _) stuck]
  rintro ⟨-, ⟨-, safe | ⟨risky, -⟩⟩ | ⟨since, -⟩⟩
  · exact absurd safe (by decide)
  · cases risky
  · cases since

end Steveo.Scheduler
