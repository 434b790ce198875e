import Steveo.Scheduler.Agreement

/-!
# Jobs with a custom duration

The configuration may say after which duration a job is to be restarted.  A maintenance pass
compares the end of that duration with the clock the other way round: it resets the job while the
duration has not passed.  A pass of the Prisma scheduler does not know when the job was accepted, so
for it no duration ever passes, and it comes to no job at all if it throws when it counts the due
ones.  This file follows a job that never finishes through any number of passes and says for which
of them the reset comes when it should.
-/

namespace Steveo.Scheduler

/-- How long ago a laggy job was accepted at least. -/
def Package.lag (package : Package) (settings : Settings) : Int :=
  match package with
  | .prisma => minutes Prisma.lagInMinutes
  | .sequelize => minutes settings.lagInMinutes

/-- A job with a custom duration, which is neither safe nor risky to restart and has been accepted
and not finished since. -/
structure CustomJob (settings : Settings) where
  row : JobRow
  duration : Int
  accepted : Int
  entry : settings.jobsCustomRestart.lookup row.name = some duration
  not_safe : row.name ∉ settings.jobsSafeToRestart
  not_risky : row.name ∉ settings.jobsRiskyToRestart
  queued : row.queued = true
  acceptedAt : row.acceptedAt = some accepted
  lastRunAt : columnLt row.lastRunAt (some accepted) = true
  unfinished : ∀ finished ∈ row.lastFinishedAt, finished < accepted

namespace CustomRestart

variable (library : RRuleLibrary) (moment : Moment) (package : Package) (settings : Settings)

/-- The jobs for which a pass calls `resetJob`. -/
def resetCalls (now : Int) (table : JobTable) : List JobRow :=
  match Pass.begin package settings now table with
  | none => []
  | some pass =>
      let blocked := pass.restartSafeBlocked package settings now
      let laggy := (blocked.resetRiskyBlocked library moment package settings now).restartSafeLaggy
        package settings now
      blocked.table.select (package.riskyBlocked settings now) ++
        (laggy.table.select (package.otherLaggy settings now)).filter
          (package.resetsLaggy settings now)

/-- A pass calls `resetJob` for the job of an identifier. -/
def Calls (id : String) (pass : Int × JobTable) : Prop :=
  ∃ job ∈ resetCalls library moment package settings pass.1 pass.2, job.id = id

/-- Some passes with the tables in which they begin.  Between two of them anything may happen
except to the row of a job. -/
def Undisturbed (row : JobRow) : List (Int × JobTable) → Prop
  | [] => True
  | (now, table) :: passes =>
      table.find row.id = some row ∧
        ∀ after, (maintenance library moment package settings now table).table.find row.id =
          some after → Undisturbed after passes

/-- When a job has to be reset at the latest. -/
def dueAt (job : CustomJob settings) : Int :=
  max (job.accepted + job.duration) (job.accepted + package.lag settings)

/-- No pass resets a job before its duration has passed, and the first pass at which it is due
does. -/
def WaitsForDuration (job : CustomJob settings) (passes : List (Int × JobTable)) : Prop :=
  (∀ pass ∈ passes, pass.1 < job.accepted + job.duration →
      ¬ Calls library moment package settings job.row.id pass) ∧
    ∀ pass ∈ passes.find? fun pass => dueAt package settings job ≤ pass.1,
      Calls library moment package settings job.row.id pass

/-- A pass looks at a job among the laggy ones that are not safe. -/
structure Considers (job : CustomJob settings) (pass : Int × JobTable) : Prop where
  counts : package.Counts settings pass.1 pass.2
  ordinary : job.row.name ≠ MAINTENANCE_JOB_NAME
  looks : package = .prisma → settings.jobsSafeToRestart ≠ []

/-- A pass takes the duration of a job for one that has not passed. -/
def Unpassed (job : CustomJob settings) (now : Int) : Prop :=
  match package with
  | .prisma => 0 < job.duration
  | .sequelize => now < job.accepted + job.duration

instance decidableUnpassed (job : CustomJob settings) (now : Int) :
    Decidable (Unpassed package settings job now) :=
  match package with
  | .prisma => inferInstanceAs (Decidable (0 < job.duration))
  | .sequelize => inferInstanceAs (Decidable (now < job.accepted + job.duration))

section Passes

variable {library moment package settings} {now : Int} {table : JobTable}

/-- A job that is neither safe nor risky is left alone until a pass comes to the other laggy
ones. -/
theorem restartedRow_eq {row : JobRow} (not_safe : row.name ∉ settings.jobsSafeToRestart)
    (not_risky : row.name ∉ settings.jobsRiskyToRestart) :
    restartedRow library moment package settings now row = row := by
  simp [restartedRow, Package.safeBlocked, Package.riskyBlocked, Package.safeLaggy, not_safe,
    not_risky]

/-- The job is laggy from the lag on. -/
theorem laggy_iff (job : CustomJob settings) :
    package.laggy settings now job.row = true ↔ job.accepted + package.lag settings ≤ now := by
  have until_eq : package.laggyUntil settings now = now - package.lag settings := by
    cases package <;> rfl
  have accepted : columnLe job.row.acceptedAt (some (package.laggyUntil settings now)) = true ↔
      job.accepted + package.lag settings ≤ now := by
    rw [job.acceptedAt, until_eq, columnLe, decide_eq_true_iff]
    omega
  have unfinished : job.accepted + package.lag settings ≤ now →
      (package.before job.row.lastFinishedAt (some (package.laggyUntil settings now)) ||
        job.row.lastFinishedAt.isNone) = true := by
    intro late
    cases finished : job.row.lastFinishedAt with
    | none => simp
    | some last =>
        have earlier := job.unfinished last finished
        have within : last < package.laggyUntil settings now := by
          rw [until_eq]
          omega
        cases package with
        | prisma => simp [Package.before, columnLt, within]
        | sequelize => simp [Package.before, columnLe, within.le]
  simp only [Package.laggy, job.queued, Bool.true_and, Bool.and_eq_true, accepted]
  constructor
  · exact fun laggy => laggy.2
  · intro late
    exact ⟨⟨job.acceptedAt ▸ job.lastRunAt, unfinished late⟩, late⟩

/-- The query for the other laggy jobs takes a job from the lag on, if it looks at it at all. -/
theorem otherLaggy_iff (job : CustomJob settings) :
    package.otherLaggy settings now job.row = true ↔
      (job.row.name ≠ MAINTENANCE_JOB_NAME ∧
        (package = .prisma → settings.jobsSafeToRestart ≠ [])) ∧
          job.accepted + package.lag settings ≤ now := by
  have others := job.not_safe
  rw [← laggy_iff job]
  cases package with
  | prisma => simp [Package.otherLaggy, others, and_comm, and_left_comm, and_assoc]
  | sequelize => simp [Package.otherLaggy, and_comm]

/-- The pass resets the job as long as it takes the duration for one that has not passed. -/
theorem resetsLaggy_iff (job : CustomJob settings) :
    package.resetsLaggy settings now job.row = true ↔ Unpassed package settings job now := by
  have custom : settings.customRestart job.row.name = some job.duration := by
    simp [Settings.customRestart, job.entry]
  cases package with
  | prisma =>
      simp only [Package.resetsLaggy, custom, Package.accepted, Unpassed, Option.map_some, columnLt,
        decide_eq_true_iff]
      omega
  | sequelize => simp [Package.resetsLaggy, custom, Package.accepted, Unpassed, job.acceptedAt]

/-- Restarting the safe blocked jobs makes no row with the identifier of the job risky. -/
theorem not_riskyBlocked {pass : Pass} (job : CustomJob settings)
    (present : pass.table.find job.row.id = some job.row) {other : JobRow}
    (selected : other ∈ (pass.restartSafeBlocked package settings now).table.select
      (package.riskyBlocked settings now)) : other.id ≠ job.row.id := by
  intro same
  obtain ⟨member, risky⟩ := JobTable.mem_select.mp selected
  have located := JobTable.find_of_mem member
  rw [JobTable.find_of_rows (fun row => by split <;> rfl) (Pass.rows_restartSafeBlocked _),
    same, present, Option.map_some] at located
  have named : other.name = job.row.name := by
    rw [← Option.some.inj located]
    split <;> rfl
  rw [Package.riskyBlocked, named, Bool.and_eq_true, decide_eq_true_iff] at risky
  exact job.not_risky risky.2

/-- A pass that can count the due jobs calls `resetJob` for the job if it finds it among the other
laggy ones. -/
theorem calls_iff_of_counts (job : CustomJob settings) (counts : package.Counts settings now table)
    (present : table.find job.row.id = some job.row) :
    Calls library moment package settings job.row.id (now, table) ↔
      package.otherLaggy settings now job.row = true ∧
        package.resetsLaggy settings now job.row = true := by
  obtain ⟨count, begun⟩ := begin_eq_some counts
  let pass : Pass := { table := table, notices := [.pending count] }
  have kept : (pass.restarted library moment package settings now).table.find job.row.id =
      some job.row := by
    rw [Pass.find_restarted, present, Option.map_some,
      restartedRow_eq job.not_safe job.not_risky]
  rw [Calls, resetCalls]
  simp only [begun]
  constructor
  · rintro ⟨other, called, same⟩
    rcases List.mem_append.mp called with blocked | laggy
    · exact absurd same (not_riskyBlocked job present blocked)
    · obtain ⟨selected, resets⟩ := List.mem_filter.mp laggy
      obtain ⟨member, taken⟩ := JobTable.mem_select.mp selected
      have located := JobTable.find_of_mem member
      rw [same] at located
      obtain rfl := Option.some.inj (kept.symm.trans located)
      exact ⟨taken, resets⟩
  · rintro ⟨taken, resets⟩
    refine ⟨job.row, List.mem_append_right _ (List.mem_filter.mpr ⟨?_, resets⟩), rfl⟩
    exact JobTable.mem_select.mpr ⟨(JobTable.mem_of_find kept).1, taken⟩

/-- A pass calls `resetJob` for the job from the lag on and until the duration has passed. -/
theorem calls_iff (job : CustomJob settings) (present : table.find job.row.id = some job.row) :
    Calls library moment package settings job.row.id (now, table) ↔
      Considers package settings job (now, table) ∧ job.accepted + package.lag settings ≤ now ∧
        Unpassed package settings job now := by
  by_cases counts : package.Counts settings now table
  · rw [calls_iff_of_counts job counts present, otherLaggy_iff, resetsLaggy_iff, and_assoc]
    exact and_congr_left' ⟨fun looks => ⟨counts, looks.1, looks.2⟩,
      fun considers => ⟨considers.ordinary, considers.looks⟩⟩
  · refine iff_of_false ?_ fun possible => counts possible.1.counts
    rintro ⟨other, called, -⟩
    simp [resetCalls, begin_eq_none counts] at called

/-- A pass leaves the row of the job as it is, unless it is one of the Sequelize scheduler that
calls `resetJob` for the job. -/
theorem find_of_spared (job : CustomJob settings)
    (present : table.find job.row.id = some job.row)
    (spared : package = .sequelize →
      ¬ Calls library moment package settings job.row.id (now, table)) :
    (maintenance library moment package settings now table).table.find job.row.id =
      some job.row := by
  by_cases counts : package.Counts settings now table
  · have kept : (package.treatment library moment settings now job.row).apply package now
        job.row = job.row := by
      rw [← finalRow_eq_apply, restartedRow_eq job.not_safe job.not_risky]
      split
      · rename_i selected
        cases package with
        | prisma => rw [resetRow, nextReset_prisma]
        | sequelize =>
            rw [Bool.and_eq_true, otherLaggy_iff, resetsLaggy_iff] at selected
            obtain ⟨⟨⟨ordinary, looks⟩, late⟩, unpassed⟩ := selected
            exact absurd ((calls_iff job present).mpr ⟨⟨counts, ordinary, looks⟩, late, unpassed⟩)
              (spared rfl)
      · rfl
    rw [JobTable.find_of_rows (fun row => Treatment.apply_id _) (Pass.rows_maintenance counts),
      present, Option.map_some, kept]
  · rw [maintenance_of_not_counts counts]
    exact present

/-- As long as no pass resets the job, each of them finds its row unchanged. -/
theorem present_of_spared (job : CustomJob settings) {passes : List (Int × JobTable)}
    (undisturbed : Undisturbed library moment package settings job.row passes)
    (spared : package = .sequelize → ∀ pass ∈ passes, pass.2.find job.row.id = some job.row →
      ¬ Calls library moment package settings job.row.id pass) :
    ∀ pass ∈ passes, pass.2.find job.row.id = some job.row := by
  induction passes with
  | nil =>
      intro pass member
      cases member
  | cons first passes induction =>
      obtain ⟨now, table⟩ := first
      obtain ⟨present, later⟩ := undisturbed
      have unchanged := find_of_spared job present fun sequelize =>
        spared sequelize _ List.mem_cons_self present
      exact List.forall_mem_cons.mpr ⟨present, induction (later _ unchanged)
        fun sequelize pass member => spared sequelize pass (List.mem_cons_of_mem _ member)⟩

/-- In the Prisma scheduler the duration of a job is not over before it has passed. -/
theorem unpassed_of_early {job : CustomJob settings}
    (late : job.accepted + package.lag settings ≤ now) (early : now < job.accepted + job.duration) :
    Unpassed package settings job now := by
  cases package with
  | prisma =>
      have positive : 0 < minutes Prisma.lagInMinutes := by decide
      simp only [Package.lag, Unpassed] at late ⊢
      omega
  | sequelize => exact early

/-- The custom duration of a job is waited for exactly if no pass looks at the job between the lag
and the end of the duration, and the first pass at which the job is due, if there is one, is of the
Prisma scheduler and looks at the job, whose duration is positive. -/
theorem waitsForDuration_iff (job : CustomJob settings) {passes : List (Int × JobTable)}
    (undisturbed : Undisturbed library moment package settings job.row passes) :
    WaitsForDuration library moment package settings job passes ↔
      (∀ pass ∈ passes, Considers package settings job pass →
          ¬ (job.accepted + package.lag settings ≤ pass.1 ∧
            pass.1 < job.accepted + job.duration)) ∧
        ∀ pass ∈ passes.find? fun pass => dueAt package settings job ≤ pass.1,
          package = .prisma ∧ 0 < job.duration ∧ Considers package settings job pass := by
  have due {pass : Int × JobTable}
      (first : pass ∈ passes.find? fun pass => dueAt package settings job ≤ pass.1) :
      pass ∈ passes ∧ job.accepted + job.duration ≤ pass.1 ∧
        job.accepted + package.lag settings ≤ pass.1 := by
    have isLate : dueAt package settings job ≤ pass.1 := by
      simpa using List.find?_some first
    exact ⟨List.mem_of_find?_eq_some first, Int.max_le.mp isLate⟩
  constructor
  · rintro ⟨not_early, reset⟩
    have spared : package = .sequelize → ∀ pass ∈ passes,
        pass.2.find job.row.id = some job.row →
          ¬ Calls library moment package settings job.row.id pass := by
      rintro rfl pass member found calls
      exact not_early pass member ((calls_iff job found).mp calls).2.2 calls
    have present := present_of_spared job undisturbed spared
    refine ⟨fun pass member considered within => ?_, fun pass first => ?_⟩
    · exact not_early pass member within.2 ((calls_iff job (present pass member)).mpr
        ⟨considered, within.1, unpassed_of_early within.1 within.2⟩)
    · obtain ⟨member, lapsed, -⟩ := due first
      obtain ⟨considered, -, unpassed⟩ :=
        (calls_iff job (present pass member)).mp (reset pass first)
      cases package with
      | prisma => exact ⟨rfl, unpassed, considered⟩
      | sequelize => exact absurd unpassed (Int.not_lt.mpr lapsed)
  · rintro ⟨not_within, reset⟩
    have early_spared : ∀ pass ∈ passes, pass.2.find job.row.id = some job.row →
        pass.1 < job.accepted + job.duration →
          ¬ Calls library moment package settings job.row.id pass := by
      intro pass member found early calls
      obtain ⟨considered, late, -⟩ := (calls_iff job found).mp calls
      exact not_within pass member considered ⟨late, early⟩
    have present := present_of_spared job undisturbed fun sequelize pass member found calls => by
      subst sequelize
      exact early_spared pass member found ((calls_iff job found).mp calls).2.2 calls
    refine ⟨fun pass member => early_spared pass member (present pass member), ?_⟩
    intro pass first
    obtain ⟨rfl, positive, considered⟩ := reset pass first
    obtain ⟨member, -, late⟩ := due first
    exact (calls_iff job (present pass member)).mpr ⟨considered, late, positive⟩

end Passes

/-- The job with a custom duration of an hour, accepted at the exact second. -/
def reportJob : CustomJob reportSettings where
  row := { reportRow with acceptedAt := some exactSecond }
  duration := minutes 60
  accepted := exactSecond
  entry := by decide
  not_safe := by decide
  not_risky := by decide
  queued := rfl
  acceptedAt := rfl
  lastRunAt := by decide
  unfinished := by
    intro finished never
    cases never

/-- A table with that job only. -/
def reportTable : JobTable := JobTable.empty.insert reportJob.row

theorem find_report : reportTable.find reportJob.row.id = some reportJob.row :=
  JobTable.find_of_mem (List.mem_singleton_self _)

/-- No job of that table is due. -/
theorem reportTable_counts (package : Package) (now : Int) :
    package.Counts reportSettings now reportTable := by
  rintro - row present
  obtain rfl := List.mem_singleton.mp present
  rfl

/-- In both packages a pass that takes place ten minutes after the acceptance resets a job that is
to be restarted after an hour. -/
theorem report_reset_early : [Package.prisma, .sequelize].Forall fun package =>
    Undisturbed hourlyRules universalTime package reportSettings reportJob.row
        [(exactSecond + minutes 10, reportTable)] ∧
      ¬ WaitsForDuration hourlyRules universalTime package reportSettings reportJob
        [(exactSecond + minutes 10, reportTable)] := by
  refine List.forall_iff_forall_mem.mpr fun package _ => ⟨⟨find_report, fun _ _ => trivial⟩, ?_⟩
  rintro ⟨not_early, -⟩
  refine not_early _ (List.mem_singleton_self _) (by decide)
    ((calls_iff reportJob find_report).mpr
      ⟨⟨reportTable_counts package _, by decide, fun _ => by decide⟩, ?_⟩)
  cases package <;> decide

/-- A pass that takes place before the lag leaves the job alone. -/
theorem report_left_alone : [Package.prisma, .sequelize].Forall fun package =>
    WaitsForDuration hourlyRules universalTime package reportSettings reportJob
      [(exactSecond + minutes 5, reportTable)] := by
  refine List.forall_iff_forall_mem.mpr fun package _ => ?_
  have undisturbed : Undisturbed hourlyRules universalTime package reportSettings reportJob.row
      [(exactSecond + minutes 5, reportTable)] := ⟨find_report, fun _ _ => trivial⟩
  refine (waitsForDuration_iff reportJob undisturbed).mpr ⟨fun pass member _ => ?_, ?_⟩
  · obtain rfl := List.mem_singleton.mp member
    cases package <;> decide
  · cases package <;> exact nofun

end CustomRestart

end Steveo.Scheduler
