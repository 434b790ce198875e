import Steveo.Library.Action
import Steveo.Scheduler.Fleet

/-!
# The maintenance job after the start

Before its first run a scheduler looks for a job of the name `check` and creates one if there is
none.  This file models that look-up, which asks for the name only, and says when the job that is
there afterwards can be enqueued.
-/

namespace Steveo.Scheduler

open Steveo.Action

namespace Startup

/-- A scheduler that starts, and the jobs table. -/
structure Session where
  startupCheck : Bool
  table : JobTable

/-- A scheduler that has been constructed. -/
def Session.constructed (table : JobTable) : Session := ⟨false, table⟩

/-- The first row of a statement that selects by the name only. -/
def findFirst (name : String) : Action Session (Option JobRow) := do
  pure ((← get).table.select fun row => row.name = name).head?

/-- Insert a row under an identifier that the database generates; it refuses one that is in use. -/
def create (row : JobRow) : Action Session Unit := do
  ensure ((← get).table.find row.id).isNone
    "PrismaClientKnownRequestError: Unique constraint failed"
  modify fun session => { session with table := session.table.insert row }

/-- Insert a row unless some row has its name. -/
def findOrCreate (row : JobRow) : Action Session Unit := do
  match ← findFirst row.name with
  | some _ => pure ()
  | none => create row

namespace Prisma

/-- Look for the maintenance job, and create it if there is none. -/
def init (now : Int) (id : String) : Action Session Unit := do
  runIf (!(← get).startupCheck) do
    modify fun session => { session with startupCheck := true }
    match ← findFirst MAINTENANCE_JOB_NAME with
    | some _ => pure ()
    | none => create (Fleet.createdJob now id)

end Prisma

namespace Sequelize

/-- Find or create the maintenance job. -/
def init (now : Int) (id : String) : Action Session Unit := do
  runIf (!(← get).startupCheck) do
    modify fun session => { session with startupCheck := true }
    findOrCreate (Fleet.createdJob now id)

end Sequelize

/-- The start of a scheduler of a package. -/
def init (package : Package) (now : Int) (id : String) : Action Session Unit :=
  match package with
  | .prisma => Prisma.init now id
  | .sequelize => Sequelize.init now id

/-- The conditions of the enqueue query other than those on `queued` and `next_run_at`. -/
def selectable (fleet : Fleet) (row : JobRow) : Bool :=
  row.deletedAt.isNone && decide (row.name ∈ fleet.settings.allJobs) && fleet.owns row

/-- The enqueue query takes the selectable rows that are not queued and whose time has come. -/
theorem enqueueable_eq (fleet : Fleet) (now : Int) (row : JobRow) :
    fleet.enqueueable now row =
      (!row.queued && columnLt row.nextRunAt (some now) && selectable fleet row) := by
  simp only [Fleet.enqueueable, due, selectable, Bool.and_assoc]

/-- Some maintenance job meets the conditions of the enqueue query that do not pass with time. -/
def HasRunnableCheck (fleet : Fleet) (table : JobTable) : Prop :=
  ∃ row ∈ table.rows, row.name = MAINTENANCE_JOB_NAME ∧ selectable fleet row = true

/-! ## What the start does -/

section Starts

variable {table : JobTable} {now : Int} {id : String}

theorem maintenance_mem_allJobs (settings : Settings) :
    MAINTENANCE_JOB_NAME ∈ settings.allJobs := by
  simp [Settings.allJobs]

/-- For a maintenance job the name is no condition. -/
theorem selectable_iff {fleet : Fleet} {row : JobRow} (name : row.name = MAINTENANCE_JOB_NAME) :
    selectable fleet row = true ↔ row.deletedAt = none ∧ fleet.owns row = true := by
  simp [selectable, name, maintenance_mem_allJobs]

theorem exec_findFirst (name : String) (session : Session) :
    exec (findFirst name) session =
      (.ok (session.table.select fun row => row.name = name).head?, session) := rfl

/-- Both packages do the same: they create the job if no row has its name. -/
theorem exec_init (package : Package) (now : Int) (id : String) (table : JobTable) :
    exec (init package now id) (.constructed table) =
      if ∃ row ∈ table.rows, row.name = MAINTENANCE_JOB_NAME then (.ok (), ⟨true, table⟩)
      else exec (create (Fleet.createdJob now id)) ⟨true, table⟩ := by
  have started : exec (init package now id) (.constructed table) =
      exec (findFirst MAINTENANCE_JOB_NAME >>= fun found =>
        match found with
        | some _ => pure ()
        | none => create (Fleet.createdJob now id)) ⟨true, table⟩ := by
    cases package <;> rfl
  rw [started, exec_bind_ok (exec_findFirst _ _)]
  cases found : (table.select fun row => row.name = MAINTENANCE_JOB_NAME).head? with
  | none =>
      rw [if_neg]
      rintro ⟨row, member, name⟩
      have empty := List.head?_eq_none_iff.mp found
      have selected : row ∈ table.select fun row => row.name = MAINTENANCE_JOB_NAME :=
        JobTable.mem_select.mpr ⟨member, decide_eq_true name⟩
      rw [empty] at selected
      cases selected
  | some row =>
      obtain ⟨member, name⟩ := JobTable.mem_select.mp (List.mem_of_mem_head? found)
      rw [if_pos ⟨row, member, of_decide_eq_true name⟩]
      rfl

/-- A created row is added to the table under an identifier that was not in use. -/
theorem exec_create_eq_ok {row : JobRow} {before after : Session}
    (created : exec (create row) before = (.ok (), after)) :
    before.table.find row.id = none ∧ after.table.rows = before.table.rows ++ [row] := by
  rw [create, exec_bind_ok (exec_get before)] at created
  cases found : before.table.find row.id with
  | some other =>
      rw [found] at created
      cases congrArg Prod.fst created
  | none =>
      rw [found, Option.isNone_none, exec_bind_ok (exec_ensure_true _ _)] at created
      obtain rfl : _ = after := congrArg Prod.snd created
      exact ⟨rfl, JobTable.rows_insert found⟩

/-- After the start some maintenance job can be enqueued when its time comes exactly if there was
one before, or if there was no maintenance job at all and the scheduler has no namespace. -/
theorem hasRunnableCheck_iff (fleet : Fleet) {after : Session}
    (started : exec (init fleet.package now id) (.constructed table) = (.ok (), after)) :
    HasRunnableCheck fleet after.table ↔
      HasRunnableCheck fleet table ∨
        (∀ row ∈ table.rows, row.name ≠ MAINTENANCE_JOB_NAME) ∧
          fleet.settings.nameSpace.filter (· ≠ "") = none := by
  rw [exec_init] at started
  split at started
  · rename_i exists_check
    obtain ⟨row, member, name⟩ := exists_check
    obtain rfl := (Prod.mk.inj started).2
    exact (or_iff_left fun absent => absent.1 row member name).symm
  · rename_i no_check
    have none_named : ∀ row ∈ table.rows, row.name ≠ MAINTENANCE_JOB_NAME :=
      fun row member name => no_check ⟨row, member, name⟩
    have unnamed : ¬ HasRunnableCheck fleet table :=
      fun ⟨row, member, name, _⟩ => none_named row member name
    obtain ⟨-, rows⟩ := exec_create_eq_ok started
    have owned : fleet.owns (Fleet.createdJob now id) = true ↔
        fleet.settings.nameSpace.filter (· ≠ "") = none := by
      rw [Fleet.owns]
      cases fleet.settings.nameSpace.filter (· ≠ "") <;> simp [Fleet.createdJob]
    rw [or_iff_right unnamed, and_iff_right none_named, ← owned]
    constructor
    · rintro ⟨row, member, name, selected⟩
      rw [rows] at member
      rcases List.mem_append.mp member with earlier | created
      · exact absurd name (none_named row earlier)
      · obtain rfl := List.mem_singleton.mp created
        exact ((selectable_iff name).mp selected).2
    · intro owns
      refine ⟨Fleet.createdJob now id, ?_, rfl, (selectable_iff rfl).mpr ⟨rfl, owns⟩⟩
      rw [rows]
      exact List.mem_append_right _ (List.mem_singleton_self _)

end Starts

/-- A fleet without tasks of its own, for a namespace or for none. -/
def plain (package : Package) (nameSpace : Option String) : Fleet where
  library := hourlyRules
  moment := universalTime
  package := package
  settings :=
    { jobsSafeToRestart := [], jobsRiskyToRestart := [], jobsCustomRestart := [], tasks := []
      wrapped := [], nameSpace := nameSpace }

theorem exec_init_empty (package : Package) (now : Int) (id : String) :
    exec (init package now id) (.constructed .empty) =
      (.ok (), ⟨true, JobTable.empty.insert (Fleet.createdJob now id)⟩) := by
  cases package <;> rfl

/-- In either package a scheduler without a namespace that starts with an empty table can enqueue
its maintenance job. -/
theorem created_runnable : [Package.prisma, .sequelize].Forall fun package =>
    HasRunnableCheck (plain package none) (JobTable.empty.insert (Fleet.createdJob 0 "1")) := by
  refine List.forall_iff_forall_mem.mpr fun package _ => ?_
  refine (hasRunnableCheck_iff (plain package none) (exec_init_empty package 0 "1")).mpr
    (.inr ⟨?_, rfl⟩)
  intro row member
  cases member

/-- In either package a scheduler of a namespace that starts with an empty table creates a
maintenance job without a namespace and never enqueues it. -/
theorem created_elsewhere : [Package.prisma, .sequelize].Forall fun package => ∃ after,
    exec (init package 0 "1") (.constructed .empty) = (.ok (), after) ∧
      ¬ HasRunnableCheck (plain package (some "a")) after.table := by
  refine List.forall_iff_forall_mem.mpr fun package _ => ?_
  refine ⟨_, exec_init_empty package 0 "1", ?_⟩
  rintro ⟨row, member, name, selected⟩
  obtain rfl := List.mem_singleton.mp member
  cases (selectable_iff name).mp selected |>.2

end Startup

end Steveo.Scheduler
