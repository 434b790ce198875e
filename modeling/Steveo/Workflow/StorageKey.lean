import Steveo.Library.Uuid
import Steveo.Workflow.Delivery

/-!
# Storage keys of new executions

The table of workflow states is keyed by a column of type `UUID`, so that the database takes a text
for a key only if it can be read as an identifier.  The engine makes the key of a new execution out
of the name of the workflow and a random identifier.
-/

namespace Steveo

open Steveo.Action

/-- The rows of the table of workflow states. -/
abbrev KeyedRows := Uuid → Option WorkflowState

namespace WorkflowStateRepositoryPostgres

/-- The value of the key column for a text. -/
def key (workflowId : String) : Action KeyedRows Uuid :=
  match Uuid.ofText workflowId with
  | none => throw "PrismaClientKnownRequestError: Inconsistent column data: Error creating UUID"
  | some key => pure key

/-- The row of a new execution. -/
def newRow (key : Uuid) (serviceId current : String) (initial : Fields) : WorkflowState where
  workflowId := key.text
  serviceId := serviceId
  completed := false
  current := current
  initial := initial
  results := none
  errors := none

/-- Create the row of a new execution; the key must be unused. -/
def workflowInit (workflowId serviceId current : String) (initial : Fields) :
    Action KeyedRows Unit := do
  let key ← key workflowId
  match (← get) key with
  | some _ => throw "PrismaClientKnownRequestError: Unique constraint failed"
  | none =>
      modify fun rows => Function.update rows key (some (newRow key serviceId current initial))

/-- Read the row of a workflow. -/
def loadWorkflow (workflowId : String) : Action KeyedRows (Option WorkflowState) := do
  let key ← key workflowId
  pure ((← get) key)

/-- Some execution can be created under an identifier and is found again under it. -/
def StoredAndFound (workflowId : String) : Prop :=
  ∃ serviceId current initial rows after,
    exec (workflowInit workflowId serviceId current initial) rows = (.ok (), after) ∧
      ∃ row, exec (loadWorkflow workflowId) after = (.ok (some row), after)

variable {workflowId : String}

/-- A text that is no identifier is refused without an effect. -/
theorem exec_key_unreadable (unreadable : Uuid.ofText workflowId = none) (rows : KeyedRows) :
    ∃ thrown, exec (key workflowId) rows = (.error thrown, rows) := by
  rw [key, unreadable]
  exact ⟨_, rfl⟩

theorem exec_key {key : Uuid} (readable : Uuid.ofText workflowId = some key) (rows : KeyedRows) :
    exec (WorkflowStateRepositoryPostgres.key workflowId) rows = (.ok key, rows) := by
  rw [WorkflowStateRepositoryPostgres.key, readable]
  rfl

theorem exec_workflowInit {key : Uuid} (readable : Uuid.ofText workflowId = some key)
    {rows : KeyedRows} (unused : rows key = none) (serviceId current : String)
    (initial : Fields) :
    exec (workflowInit workflowId serviceId current initial) rows =
      (.ok (), Function.update rows key (some (newRow key serviceId current initial))) := by
  rw [workflowInit, exec_bind_ok (exec_key readable rows), exec_bind_ok (exec_get rows), unused]
  rfl

theorem exec_loadWorkflow {key : Uuid} (readable : Uuid.ofText workflowId = some key)
    (rows : KeyedRows) : exec (loadWorkflow workflowId) rows = (.ok (rows key), rows) := by
  rw [loadWorkflow, exec_bind_ok (exec_key readable rows), exec_bind_ok (exec_get rows)]
  rfl

/-- The texts that can be keys are those that can be read as identifiers. -/
theorem storedAndFound_iff : StoredAndFound workflowId ↔ Uuid.ofText workflowId ≠ none := by
  constructor
  · rintro ⟨serviceId, current, initial, rows, after, stored, -⟩ unreadable
    obtain ⟨thrown, refused⟩ := exec_key_unreadable unreadable rows
    rw [workflowInit, exec_bind_error refused] at stored
    cases stored
  · intro readable
    obtain ⟨key, readable⟩ := Option.ne_none_iff_exists'.mp readable
    refine ⟨"", "", [], fun _ => none, _, exec_workflowInit readable rfl "" "" [],
      newRow key "" "" [], ?_⟩
    rw [exec_loadWorkflow readable, Function.update_self]

end WorkflowStateRepositoryPostgres

namespace Workflow

open WorkflowStateRepositoryPostgres

/-- The identifier of a new execution is never a key: its row can neither be stored nor found. -/
theorem freshId_not_storedAndFound (workflow : Workflow) {payload : Fields}
    (anonymous : nullish (payload.get "workflowId") = true) (session : Session)
    (random : Uuid.isV4 (workflow.host.v4 session.tick) = true) :
    exec (workflow.executionId payload) session =
        (.ok (.str (workflow.freshId session)), session.ticked) ∧
      ¬ StoredAndFound (workflow.freshId session) := by
  refine ⟨exec_executionId_fresh anonymous session, fun stored => ?_⟩
  exact storedAndFound_iff.mp stored (Uuid.ofText_named workflow.name random)

/-- A workflow of one step whose host knows one random identifier. -/
def randomised : Workflow :=
  { resolving ["a"] with
    host := { Host.accepting with v4 := fun _ => "9b1deb4d-3b7d-4bad-9bdd-2b0d7b3dcb6d" } }

theorem randomised_refused : ¬ StoredAndFound (randomised.freshId ⟨fun _ => none, 0, []⟩) :=
  (@freshId_not_storedAndFound randomised [] rfl ⟨fun _ => none, 0, []⟩ (by decide +kernel)).2

/-- The random identifier itself could be stored, but not behind the name of the workflow. -/
theorem randomised_unreadable :
    StoredAndFound (randomised.host.v4 0) ∧
      ¬ StoredAndFound (randomised.freshId ⟨fun _ => none, 0, []⟩) := by
  rw [storedAndFound_iff, storedAndFound_iff]
  decide +kernel

end Workflow

end Steveo
