import Mathlib.Data.List.Nodup
import Steveo.Library.Json
import Steveo.Scheduler.Reschedule

/-!
# The jobs table

This file models the table that the processes of a scheduler share: its rows, the statements that
select, change, insert and delete some of them, and the configuration that all processes have in
common.  Identifiers are the primary key.
-/

namespace Steveo.Scheduler

/-- A row of the jobs table. -/
structure JobRow extends Job where
  name : String
  /-- What is passed to the task; the column may be null. -/
  data : Json := .obj []
  lastRunAt : Option Int
  acceptedAt : Option Int
  deletedAt : Option Int

/-- The columns that a statement assigns; those that are `none` keep their values. -/
structure RowUpdate where
  queued : Option Bool := none
  lastRunAt : Option Int := none
  nextRunAt : Option Int := none
  acceptedAt : Option Int := none
  lastFinishedAt : Option Int := none
  failures : Option Nat := none
  failedAt : Option (Option Int) := none

/-- A row after its columns have been assigned. -/
def RowUpdate.apply (update : RowUpdate) (row : JobRow) : JobRow :=
  { row with
    queued := update.queued.getD row.queued
    lastRunAt := update.lastRunAt.or row.lastRunAt
    nextRunAt := update.nextRunAt.or row.nextRunAt
    acceptedAt := update.acceptedAt.or row.acceptedAt
    lastFinishedAt := update.lastFinishedAt.or row.lastFinishedAt
    failures := update.failures.getD row.failures
    failedAt := update.failedAt.getD row.failedAt }

namespace RowUpdate

variable (update : RowUpdate) (row : JobRow)

@[simp] theorem apply_id : (update.apply row).id = row.id := rfl

@[simp] theorem apply_name : (update.apply row).name = row.name := rfl

@[simp] theorem apply_data : (update.apply row).data = row.data := rfl

@[simp] theorem apply_nameSpace : (update.apply row).nameSpace = row.nameSpace := rfl

@[simp] theorem apply_repeatInterval : (update.apply row).repeatInterval = row.repeatInterval :=
  rfl

@[simp] theorem apply_timezone : (update.apply row).timezone = row.timezone := rfl

@[simp] theorem apply_queued : (update.apply row).queued = update.queued.getD row.queued := rfl

@[simp] theorem apply_failures :
    (update.apply row).failures = update.failures.getD row.failures := rfl

end RowUpdate

/-- The name of the job that carries out the maintenance. -/
def MAINTENANCE_JOB_NAME : String := "check"

/-- The configuration of a scheduler. -/
structure Settings where
  jobsSafeToRestart : List String
  jobsRiskyToRestart : List String
  /-- After how many milliseconds a job is to be restarted. -/
  jobsCustomRestart : List (String × Int)
  /-- The names for which there is a task. -/
  tasks : List String
  /-- The names whose tasks are published as messages and executed by consumers. -/
  published : List String := []
  /-- The names whose tasks are wrapped by the timestamp helper. -/
  wrapped : List String
  enqueueLimit : Nat := 1
  backOffMs : Nat := 60000
  maxRestartsOnFailure : Nat := 3
  nameSpace : Option String := none
  lagInMinutes : Nat := 6
  blockedInMinutes : Nat := 10

/-- The names of all jobs that a scheduler enqueues. -/
def Settings.allJobs (settings : Settings) : List String :=
  settings.tasks ++ [MAINTENANCE_JOB_NAME] ++ settings.jobsCustomRestart.map Prod.fst ++
    settings.jobsSafeToRestart ++ settings.jobsRiskyToRestart

/-- The duration of a job in `jobsCustomRestart`.  The object also has the properties that every
object inherits, which are no durations and count as none at all. -/
def Settings.customRestart (settings : Settings) (name : String) : Option Int :=
  match settings.jobsCustomRestart.lookup name with
  | some duration => some duration
  | none => if name ∈ OBJECT_PROTOTYPE then some 0 else none

/-- Some minutes in milliseconds. -/
def minutes (count : Nat) : Int := count * 60000

/-- The comparison `<` of two columns, of which none may be null. -/
def columnLt : Option Int → Option Int → Bool
  | some left, some right => left < right
  | _, _ => false

/-- The comparison `<=` of two columns, of which none may be null. -/
def columnLe : Option Int → Option Int → Bool
  | some left, some right => left ≤ right
  | _, _ => false

@[simp] theorem columnLt_iff {left right : Option Int} :
    columnLt left right = true ↔ ∃ a ∈ left, ∃ b ∈ right, a < b := by
  cases left with
  | none => simp [columnLt]
  | some a =>
      cases right with
      | none => simp [columnLt]
      | some b => simp [columnLt]

@[simp] theorem columnLe_iff {left right : Option Int} :
    columnLe left right = true ↔ ∃ a ∈ left, ∃ b ∈ right, a ≤ b := by
  cases left with
  | none => simp [columnLe]
  | some a =>
      cases right with
      | none => simp [columnLe]
      | some b => simp [columnLe]

/-- The jobs table. -/
structure JobTable where
  rows : List JobRow
  /-- No two rows have the same identifier. -/
  distinct : (rows.map fun row => row.id).Nodup

namespace JobTable

variable (table : JobTable)

/-- The table without rows. -/
def empty : JobTable := ⟨[], List.nodup_nil⟩

/-- The rows that a statement selects. -/
def select (condition : JobRow → Bool) : List JobRow := table.rows.filter condition

/-- The row with an identifier. -/
def find (id : String) : Option JobRow := table.rows.find? fun row => row.id = id

/-- Assign columns of the rows that a statement selects. -/
def write (condition : JobRow → Bool) (update : RowUpdate) : JobTable where
  rows := table.rows.map fun row => if condition row then update.apply row else row
  distinct := by
    have kept : (fun row : JobRow => row.id) ∘
        (fun row => if condition row then update.apply row else row) = fun row => row.id := by
      funext row
      by_cases selected : condition row <;> simp [selected]
    rw [List.map_map, kept]
    exact table.distinct

/-- Delete the rows that a statement selects. -/
def delete (condition : JobRow → Bool) : JobTable where
  rows := table.rows.filter fun row => !condition row
  distinct := table.distinct.sublist (List.filter_sublist.map _)

/-- Insert a row; an identifier that is in use is refused by the database. -/
def insert (row : JobRow) : JobTable :=
  if fresh : row.id ∈ table.rows.map fun row => row.id then table
  else
    { rows := table.rows ++ [row]
      distinct := by
        rw [List.map_append, List.map_singleton]
        exact List.Nodup.append table.distinct (List.nodup_singleton _) (by simpa using fresh) }

variable {table}

theorem eq_of_rows {left right : JobTable} (same : left.rows = right.rows) : left = right := by
  obtain ⟨rows, distinct⟩ := left
  obtain ⟨others, _⟩ := right
  obtain rfl : rows = others := same
  rfl

theorem find_eq_some_iff {id : String} {row : JobRow} :
    table.find id = some row ↔ row ∈ table.rows ∧ row.id = id := by
  constructor
  · intro found
    exact ⟨List.mem_of_find?_eq_some found, by simpa using List.find?_some found⟩
  · rintro ⟨member, rfl⟩
    obtain ⟨other, found⟩ := Option.isSome_iff_exists.mp
      (List.find?_isSome (p := fun other : JobRow => other.id = row.id).mpr ⟨row, member, by simp⟩)
    have same : other.id = row.id := by simpa using List.find?_some found
    have equal := List.inj_on_of_nodup_map table.distinct (List.mem_of_find?_eq_some found) member
      same
    exact equal ▸ found

theorem find_of_mem {row : JobRow} (member : row ∈ table.rows) : table.find row.id = some row :=
  find_eq_some_iff.mpr ⟨member, rfl⟩

theorem mem_of_find {id : String} {row : JobRow} (found : table.find id = some row) :
    row ∈ table.rows ∧ row.id = id := find_eq_some_iff.mp found

theorem mem_select {condition : JobRow → Bool} {row : JobRow} :
    row ∈ table.select condition ↔ row ∈ table.rows ∧ condition row = true := List.mem_filter

theorem select_distinct (condition : JobRow → Bool) :
    ((table.select condition).map fun row => row.id).Nodup :=
  table.distinct.sublist (List.filter_sublist.map _)

/-- Changing rows under their identifiers changes the row of every identifier. -/
theorem find_of_rows {before after : JobTable} {change : JobRow → JobRow}
    (kept : ∀ row, (change row).id = row.id) (rows : after.rows = before.rows.map change)
    (id : String) : after.find id = (before.find id).map change := by
  have same : ((fun row : JobRow => decide (row.id = id)) ∘ change) =
      fun row => decide (row.id = id) := by
    funext row
    simp [kept]
  rw [find, rows, List.find?_map, same]
  rfl

/-- A statement changes the row of an identifier if it selects it. -/
theorem find_write (condition : JobRow → Bool) (update : RowUpdate) (id : String) :
    (table.write condition update).find id =
      (table.find id).map fun row => if condition row then update.apply row else row := by
  refine find_of_rows (fun row => ?_) rfl id
  split <;> rfl

/-- A statement deletes the row of an identifier if it selects it. -/
theorem find_delete (condition : JobRow → Bool) (id : String) :
    (table.delete condition).find id = (table.find id).filter fun row => !condition row := by
  ext row
  simp only [find_eq_some_iff, Option.filter_eq_some_iff, delete, List.mem_filter]
  exact and_right_comm

/-- A row whose identifier is not in use is added at the end. -/
theorem rows_insert {row : JobRow} (fresh : table.find row.id = none) :
    (table.insert row).rows = table.rows ++ [row] := by
  have unused : row.id ∉ table.rows.map fun row => row.id := by
    intro used
    obtain ⟨other, member, same⟩ := List.mem_map.mp used
    rw [← same, find_of_mem member] at fresh
    cases fresh
  rw [insert, dif_neg unused]

theorem find_insert (row : JobRow) (fresh : table.find row.id = none) (id : String) :
    (table.insert row).find id = if id = row.id then some row else table.find id := by
  rw [find, rows_insert fresh, List.find?_append]
  by_cases same : id = row.id
  · subst same
    rw [find] at fresh
    simp [fresh]
  · have other : row.id ≠ id := Ne.symm same
    simp [other, same, find]

end JobTable

/-- A statement that selects the row of an identifier by the identifiers of the rows of an earlier
one selects it if the earlier one did. -/
theorem mem_ids_select {table : JobTable} {condition : JobRow → Bool} {row : JobRow}
    (member : row ∈ table.rows) :
    row.id ∈ (table.select condition).map (fun selected => selected.id) ↔
      condition row = true := by
  constructor
  · intro listed
    obtain ⟨other, selected, same⟩ := List.mem_map.mp listed
    obtain ⟨present, holds⟩ := JobTable.mem_select.mp selected
    rwa [← List.inj_on_of_nodup_map table.distinct present member same]
  · intro holds
    exact List.mem_map_of_mem (JobTable.mem_select.mpr ⟨member, holds⟩)

end Steveo.Scheduler
