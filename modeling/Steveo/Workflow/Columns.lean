import Steveo.Library.Dictionary
import Steveo.Library.Execution
import Steveo.Workflow.Repository

/-!
# Concurrent stores into one row

`storeStepResult` and `storeExecuteError` read a column of the row and write the whole column back.
This file runs them in any number of concurrent transactions: each reads what is committed or what
it has written itself, the first write takes the lock of the row until the transaction ends, and a
write that had to wait applies to the latest committed row.
-/

namespace Steveo

namespace Columns

/-- A call of `storeStepResult` or `storeExecuteError`. -/
inductive Store
  | result (step : String) (value : Option Json)
  | error (identifier content : String)

/-- A store whose column has been read and not yet written. -/
inductive Pending
  | result (step : String) (value : Option Json) (results : Option Fields)
  | error (identifier content : String) (errors : Option (List ExecuteError))

/-- The read of a store. -/
def Store.read (row : WorkflowState) : Store → Pending
  | .result step value => .result step value row.results
  | .error identifier content => .error identifier content row.errors

namespace Pending

/-- The store that is pending. -/
def store : Pending → Store
  | .result step value _ => .result step value
  | .error identifier content _ => .error identifier content

/-- The write of a store, which replaces its column and keeps the others. -/
def write (row : WorkflowState) : Pending → WorkflowState
  | .result step value results =>
      { row with current := step, results := some ((results.getD []).setProperty step value) }
  | .error identifier content errors =>
      { row with errors := some (errors.getD [] ++ [⟨identifier, content⟩]) }

/-- What the store has read is still in the row, apart from the entry that it writes itself. -/
def Fresh (row : WorkflowState) : Pending → Prop
  | .result step _ results =>
      ∀ other, other ≠ step → (results.bind fun found => found.get other) = row.result other
  | .error _ _ errors => errors.getD [] = row.errorList

/-- Whether another store writes into the column that has been read, unless both write the same
entry. -/
def conflicts : Pending → Store → Bool
  | .result step _ _, .result other _ => step != other
  | .error _ _ _, .error _ _ => true
  | .result _ _ _, .error _ _ | .error _ _ _, .result _ _ => false

end Pending

/-- The row of a workflow and the transactions that are working on it. -/
structure Database where
  committed : WorkflowState
  /-- The transaction that holds the lock of the row, with the row as it has written it. -/
  writer : Option (Nat × WorkflowState)
  /-- The pending store of each transaction. -/
  pending : Dictionary Nat Pending
  /-- The stores that the writer has made. -/
  written : List Store
  /-- The stores of all committed transactions. -/
  kept : List Store

/-- A row on which no transaction works. -/
def Database.resting (row : WorkflowState) : Database := ⟨row, none, .empty, [], []⟩

/-- What a transaction can do. -/
inductive Event
  | read (transaction : Nat) (store : Store)
  | write (transaction : Nat)
  | commit (transaction : Nat)
  | abort (transaction : Nat)

namespace Database

/-- The row as a transaction sees it. -/
def seenBy (database : Database) (transaction : Nat) : WorkflowState :=
  match database.writer with
  | some (writer, row) => if writer = transaction then row else database.committed
  | none => database.committed

/-- One step of a transaction; a write waits while another transaction holds the lock. -/
def step (database : Database) : Event → Option Database
  | .read transaction store =>
      match database.pending.get transaction with
      | some _ => none
      | none =>
          some { database with
            pending :=
              database.pending.set transaction (store.read (database.seenBy transaction)) }
  | .write transaction =>
      match database.pending.get transaction, database.writer with
      | some pending, none =>
          some { database with
            writer := some (transaction, pending.write database.committed)
            pending := database.pending.erase transaction
            written := [pending.store] }
      | some pending, some (writer, row) =>
          if writer = transaction then
            some { database with
              writer := some (transaction, pending.write row)
              pending := database.pending.erase transaction
              written := database.written ++ [pending.store] }
          else
            none
      | none, _ => none
  | .commit transaction =>
      match database.pending.get transaction, database.writer with
      | none, some (writer, row) =>
          if writer = transaction then
            some { database with
              committed := row
              writer := none
              written := []
              kept := database.kept ++ database.written }
          else
            none
      | _, _ => none
  | .abort transaction =>
      match database.writer with
      | some (writer, _) =>
          if writer = transaction then
            some { database with
              writer := none
              pending := database.pending.erase transaction
              written := [] }
          else
            some { database with pending := database.pending.erase transaction }
      | none => some { database with pending := database.pending.erase transaction }

end Database

/-- The transactions on one row. -/
def system : System Database Event := ⟨Database.step⟩

/-! ## What is to be kept -/

/-- The error that a store appends. -/
def Store.executeError : Store → Option ExecuteError
  | .result _ _ => none
  | .error identifier content => some ⟨identifier, content⟩

/-- A row contains an entry of every step among some stores, and each of their errors. -/
structure Contains (row : WorkflowState) (stores : List Store) : Prop where
  results : ∀ step value, .result step value ∈ stores →
    ∃ latest, .result step (some latest) ∈ stores ∧ row.result step = some latest
  errors : (stores.filterMap Store.executeError).Sublist row.errorList

/-- Whatever the transactions have done, the committed row contains what they have committed. -/
def LosesNothing (row : WorkflowState) : Prop :=
  ∀ events final, system.run events (.resting row) = some final →
    Contains final.committed final.kept

/-- A step result that is stored is a JSON value, of a step whose name can be assigned to. -/
def Store.Defined : Store → Prop
  | .result step value => value.isSome = true ∧ step ≠ "__proto__"
  | .error _ _ => True

/-- A transaction commits while no other one has read a column that it has written and not yet
written that column itself; and every step result that is stored is a JSON value of a step with
another name than `__proto__`. -/
def Separate (database : Database) : Event → Prop
  | .read _ store => store.Defined
  | .commit transaction =>
      ∀ entry ∈ database.pending.entries, entry.1 ≠ transaction →
        ∀ store ∈ database.written, entry.2.conflicts store = false
  | .write _ | .abort _ => True

/-! ## The stores of one transaction -/

/-- A store whose write follows its read at once is the operation of the repository. -/
theorem write_read_result (row : WorkflowState) (step : String) (value : Option Json) :
    (Store.read row (.result step value)).write row =
      { row.withResult step value with current := step } := rfl

theorem write_read_error (row : WorkflowState) (identifier content : String) :
    (Store.read row (.error identifier content)).write row = row.withError identifier content := rfl

theorem fresh_read (row : WorkflowState) (store : Store) : (store.read row).Fresh row := by
  cases store with
  | result step value => exact fun _ _ => rfl
  | error identifier content => rfl

theorem store_read (row : WorkflowState) (store : Store) : (store.read row).store = store := by
  cases store with
  | result step value => rfl
  | error identifier content => rfl

theorem result_write_self (row : WorkflowState) {step : String} (ordinary : step ≠ "__proto__")
    (value : Option Json) (results : Option Fields) :
    ((Pending.result step value results).write row).result step = value := by
  simp [Pending.write, WorkflowState.result, Fields.get_setProperty_self _ ordinary]

theorem result_write_of_ne (row : WorkflowState) {step other : String} (different : other ≠ step)
    (value : Option Json) (results : Option Fields) :
    ((Pending.result step value results).write row).result other =
      results.bind fun found => found.get other := by
  simp only [Pending.write, WorkflowState.result, Option.bind_some,
    Fields.get_setProperty_of_ne _ different]
  cases results with
  | none => rfl
  | some found => rfl

theorem contains_resting (row : WorkflowState) : Contains row [] :=
  ⟨by simp, by simp⟩

/-- A store that has read what the row still holds keeps what the row contains. -/
theorem contains_write {row : WorkflowState} {stores : List Store} {pending : Pending}
    (contains : Contains row stores) (fresh : pending.Fresh row)
    (defined : pending.store.Defined) :
    Contains (pending.write row) (stores ++ [pending.store]) := by
  cases pending with
  | result step value results =>
      obtain ⟨valued, ordinary⟩ := defined
      obtain ⟨latest, rfl⟩ := Option.isSome_iff_exists.mp valued
      refine ⟨fun other found member => ?_, ?_⟩
      · by_cases same : other = step
        · subst same
          exact ⟨latest, by simp [Pending.store], result_write_self row ordinary _ _⟩
        · have earlier : .result other found ∈ stores := by
            simpa [Pending.store, same] using member
          obtain ⟨latest, present, entry⟩ := contains.results other found earlier
          rw [result_write_of_ne row same, fresh other same]
          exact ⟨latest, List.mem_append_left _ present, entry⟩
      · have added : [Store.result step (some latest)].filterMap Store.executeError = [] := rfl
        rw [List.filterMap_append, Pending.store, added, List.append_nil]
        exact contains.errors
  | error identifier content errors =>
      refine ⟨fun other found member => ?_, ?_⟩
      · have earlier : .result other found ∈ stores := by simpa [Pending.store] using member
        obtain ⟨latest, present, entry⟩ := contains.results other found earlier
        exact ⟨latest, List.mem_append_left _ present, entry⟩
      · have appended : ((Pending.error identifier content errors).write row).errorList =
            row.errorList ++ [⟨identifier, content⟩] := by
          rw [← fresh]
          rfl
        rw [appended, List.filterMap_append]
        exact contains.errors.append (List.Sublist.refl _)

/-- A row differs from an earlier one only in what some stores have written. -/
structure Extends (earlier row : WorkflowState) (written : List Store) : Prop where
  results : ∀ step, (∀ value, .result step value ∉ written) →
    row.result step = earlier.result step
  errors : (∀ identifier content, .error identifier content ∉ written) →
    row.errorList = earlier.errorList

theorem extends_write {earlier row : WorkflowState} {written : List Store} {pending : Pending}
    (extended : Extends earlier row written) (fresh : pending.Fresh row) :
    Extends earlier (pending.write row) (written ++ [pending.store]) := by
  cases pending with
  | result step value results =>
      refine ⟨fun other absent => ?_, fun absent => ?_⟩
      · have different : other ≠ step := by
          rintro rfl
          exact absent value (by simp [Pending.store])
        rw [result_write_of_ne row different, fresh other different]
        exact extended.results other fun found member =>
          absent found (List.mem_append_left _ member)
      · exact extended.errors fun identifier content member =>
          absent identifier content (List.mem_append_left _ member)
  | error identifier content errors =>
      refine ⟨fun other absent => ?_, fun absent => ?_⟩
      · exact extended.results other fun found member =>
          absent found (List.mem_append_left _ member)
      · exact absurd (by simp [Pending.store]) (absent identifier content)

theorem extends_refl (row : WorkflowState) : Extends row row [] :=
  ⟨fun _ _ => rfl, fun _ => rfl⟩

/-- A store that does not conflict with what has been written since its read is still fresh. -/
theorem fresh_of_separate {earlier row : WorkflowState} {written : List Store} {pending : Pending}
    (extended : Extends earlier row written) (fresh : pending.Fresh earlier)
    (separate : ∀ store ∈ written, pending.conflicts store = false) : pending.Fresh row := by
  cases pending with
  | result step value results =>
      intro other different
      rw [fresh other different, extended.results other]
      intro found member
      have same := separate _ member
      simp [Pending.conflicts] at same
      exact different same.symm
  | error identifier content errors =>
      rw [Pending.Fresh, extended.errors]
      · exact fresh
      · intro other text member
        have apart := separate _ member
        simp [Pending.conflicts] at apart

/-! ## Runs of transactions -/

/-- The committed row and the row of the writer contain what has been stored in them, and every
pending store is fresh. -/
structure Current (database : Database) : Prop where
  kept : Contains database.committed database.kept
  idle : database.writer = none → database.written = []
  writing : ∀ transaction row, database.writer = some (transaction, row) →
    Contains row (database.kept ++ database.written) ∧
      Extends database.committed row database.written
  fresh : ∀ transaction pending, database.pending.get transaction = some pending →
    pending.Fresh (database.seenBy transaction) ∧ pending.store.Defined

section Steps

variable {before after : Database}

@[simp] theorem seenBy_idle {database : Database} (free : database.writer = none)
    (transaction : Nat) : database.seenBy transaction = database.committed := by
  rw [Database.seenBy, free]

theorem seenBy_writer {database : Database} {transaction : Nat} {row : WorkflowState}
    (writing : database.writer = some (transaction, row)) :
    database.seenBy transaction = row := by
  simp [Database.seenBy, writing]

theorem seenBy_other {database : Database} {transaction other : Nat} {row : WorkflowState}
    (writing : database.writer = some (transaction, row)) (different : other ≠ transaction) :
    database.seenBy other = database.committed := by
  simp [Database.seenBy, writing, Ne.symm different]

theorem current_read {transaction : Nat} {store : Store} (current : Current before)
    (separate : Separate before (.read transaction store))
    (stepped : before.step (.read transaction store) = some after) : Current after := by
  simp only [Database.step] at stepped
  split at stepped
  · contradiction
  · obtain rfl := Option.some.inj stepped
    refine ⟨current.kept, current.idle, current.writing, fun other pending found => ?_⟩
    rw [Dictionary.get_set] at found
    split at found
    · rename_i same
      subst same
      obtain rfl := Option.some.inj found
      refine ⟨fresh_read _ store, ?_⟩
      rwa [store_read]
    · exact current.fresh other pending found

/-- A write makes its transaction the writer of the row, with one more store. -/
theorem current_write {transaction : Nat} (current : Current before)
    (stepped : before.step (.write transaction) = some after) : Current after := by
  simp only [Database.step] at stepped
  split at stepped
  · rename_i pending found free
    obtain rfl := Option.some.inj stepped
    obtain ⟨fresh, defined⟩ := current.fresh transaction pending found
    rw [seenBy_idle free] at fresh
    refine ⟨current.kept, by simp, fun writer row writing => ?_, fun other waiting kept => ?_⟩
    · obtain ⟨rfl, rfl⟩ := Prod.mk.inj (Option.some.inj writing)
      exact ⟨contains_write current.kept fresh defined, extends_write (extends_refl _) fresh⟩
    · rw [Dictionary.get_erase] at kept
      split at kept
      · contradiction
      · rename_i different
        have waits := current.fresh other waiting kept
        rw [seenBy_idle free] at waits
        rwa [seenBy_other rfl different]
  · rename_i pending writer row found writing
    simp only [Option.ite_none_right_eq_some, Option.some.injEq] at stepped
    obtain ⟨rfl, rfl⟩ := stepped
    obtain ⟨fresh, defined⟩ := current.fresh writer pending found
    rw [seenBy_writer writing] at fresh
    obtain ⟨contains, extended⟩ := current.writing writer row writing
    refine ⟨current.kept, by simp, fun other next same => ?_, fun other waiting kept => ?_⟩
    · obtain ⟨rfl, rfl⟩ := Prod.mk.inj (Option.some.inj same)
      refine ⟨?_, extends_write extended fresh⟩
      rw [← List.append_assoc]
      exact contains_write contains fresh defined
    · rw [Dictionary.get_erase] at kept
      split at kept
      · contradiction
      · rename_i different
        have waits := current.fresh other waiting kept
        rw [seenBy_other writing different] at waits
        rwa [seenBy_other rfl different]
  · contradiction

/-- A commit publishes the row of the writer; what others have read is still fresh. -/
theorem current_commit {transaction : Nat} (current : Current before)
    (separate : Separate before (.commit transaction))
    (stepped : before.step (.commit transaction) = some after) : Current after := by
  simp only [Database.step] at stepped
  split at stepped
  · rename_i writer row finished writing
    simp only [Option.ite_none_right_eq_some, Option.some.injEq] at stepped
    obtain ⟨rfl, rfl⟩ := stepped
    obtain ⟨contains, extended⟩ := current.writing writer row writing
    refine ⟨contains, fun _ => rfl, by simp, fun other waiting found => ?_⟩
    rw [seenBy_idle rfl]
    have different : other ≠ writer := by
      rintro rfl
      rw [finished] at found
      contradiction
    obtain ⟨fresh, defined⟩ := current.fresh other waiting found
    rw [seenBy_other writing different] at fresh
    refine ⟨fresh_of_separate extended fresh ?_, defined⟩
    exact separate (other, waiting) ((Dictionary.mem_entries_iff_get _ _ _).mpr found) different
  · contradiction

/-- An abort takes the row of the writer back. -/
theorem current_abort {transaction : Nat} (current : Current before)
    (stepped : before.step (.abort transaction) = some after) : Current after := by
  have remaining : ∀ other waiting,
      (before.pending.erase transaction).get other = some waiting →
        other ≠ transaction ∧ before.pending.get other = some waiting := by
    intro other waiting found
    rw [Dictionary.get_erase] at found
    split at found
    · contradiction
    · exact ⟨by assumption, found⟩
  simp only [Database.step] at stepped
  split at stepped
  · rename_i writer row writing
    split at stepped
    · rename_i same
      subst same
      obtain rfl := Option.some.inj stepped
      refine ⟨current.kept, fun _ => rfl, by simp, fun other waiting found => ?_⟩
      obtain ⟨different, found⟩ := remaining other waiting found
      have waits := current.fresh other waiting found
      rwa [seenBy_other writing different] at waits
    · obtain rfl := Option.some.inj stepped
      refine ⟨current.kept, current.idle, current.writing, fun other waiting found => ?_⟩
      exact current.fresh other waiting (remaining other waiting found).2
  · obtain rfl := Option.some.inj stepped
    refine ⟨current.kept, current.idle, current.writing, fun other waiting found => ?_⟩
    exact current.fresh other waiting (remaining other waiting found).2

theorem current_step {event : Event} (current : Current before) (separate : Separate before event)
    (stepped : system.step before event = some after) : Current after := by
  cases event with
  | read transaction store => exact current_read current separate stepped
  | write transaction => exact current_write current stepped
  | commit transaction => exact current_commit current separate stepped
  | abort transaction => exact current_abort current stepped

end Steps

/-- Where no transaction commits into a column that another one has read and is about to write, the
committed row contains every step result and every error that committed transactions have
stored. -/
theorem contains_of_separate (row : WorkflowState) {events : List Event} {final : Database}
    (separate : system.Along Separate events (.resting row))
    (execution : system.run events (.resting row) = some final) :
    Contains final.committed final.kept := by
  have start : Current (.resting row) :=
    ⟨contains_resting row, fun _ => rfl, by simp [Database.resting], by simp [Database.resting]⟩
  have preserved : ∀ before event after, Current before → Separate before event →
      system.step before event = some after → Current after :=
    fun _ _ _ current separate stepped => current_step current separate stepped
  exact (System.invariant_run preserved start separate execution).kept

instance decidableDefined : ∀ store : Store, Decidable store.Defined
  | .result step value =>
      inferInstanceAs (Decidable (value.isSome = true ∧ step ≠ "__proto__"))
  | .error _ _ => isTrue trivial

instance decidableSeparate (database : Database) : ∀ event, Decidable (Separate database event)
  | .read _ store => inferInstanceAs (Decidable store.Defined)
  | .commit transaction =>
      inferInstanceAs (Decidable (∀ entry ∈ database.pending.entries, entry.1 ≠ transaction →
        ∀ store ∈ database.written, entry.2.conflicts store = false))
  | .write _ | .abort _ => isTrue trivial

/-- The row of an execution that has just been started. -/
def startedRow : WorkflowState where
  workflowId := "flow-1"
  serviceId := "DEFAULT"
  completed := false
  current := "a"
  initial := []
  results := none
  errors := none

/-- Two stores of one transaction after the other. -/
def inTurn : List Event :=
  [.read 1 (.result "a" (some .null)), .write 1, .commit 1, .read 2 (.result "b" (some .null)),
    .write 2, .commit 2]

theorem inTurn_contains :
    ∃ final, system.run inTurn (.resting startedRow) = some final ∧
      Contains final.committed final.kept := by
  have separate : system.Along Separate inTurn (.resting startedRow) := by decide
  exact ⟨_, rfl, contains_of_separate startedRow separate rfl⟩

/-- The second transaction writes back the results that it read before the first one committed. -/
theorem startedRow_loses : ¬ LosesNothing startedRow := by
  intro contains
  have held := contains [.read 1 (.result "a" (some .null)), .read 2 (.result "b" (some .null)),
    .write 1, .commit 1, .write 2, .commit 2] _ rfl
  obtain ⟨latest, -, entry⟩ := held.results "a" (some .null) List.mem_cons_self
  have missing : (none : Option Json) = some latest := entry
  simp at missing

end Columns

end Steveo
