import Mathlib.Data.List.Basic
import Steveo.Library.Execution

/-!
# Terminating a scheduler

This file models one scheduler between two turns of the event loop: the runs of `runScheduledJobs`,
which initialise the scheduler, fetch a batch and publish it item by item, the timer that begins the
next run, and the calls of `terminate`, which wait for the batch for a limited time.  Both packages
share this code.
-/

namespace Steveo.Scheduler

namespace Termination

/-- Rows of one task as the enqueue query returns them. -/
structure JobSet where
  name : String
  items : List String
  deriving DecidableEq

/-- How far a call of `runScheduledJobs` has come. -/
inductive Run
  | initializing
  | fetching
  /-- The task of an item is executing, and others wait for it. -/
  | publishing (item : String) (waiting : List String)
  | ended
  deriving DecidableEq

/-- Whether the task of an item is executing. -/
def Run.executing : Run → Bool
  | .publishing _ _ => true
  | .initializing | .fetching | .ended => false

/-- A scheduler between two turns of the event loop. -/
structure State where
  /-- Milliseconds since the epoch. -/
  now : Nat
  exiting : Bool
  paused : Bool
  processing : Bool
  processingCount : Nat
  /-- Whether `currentTimeout` is going to fire. -/
  timer : Bool
  runs : List Run
  /-- When the calls of `terminate` that still wait began to wait. -/
  waits : List Nat
  /-- Whether the promise of a call of `terminate` has resolved. -/
  terminated : Bool

/-- A scheduler that has been constructed at an instant. -/
def State.constructed (now : Nat) : State where
  now := now
  exiting := false
  paused := false
  processing := false
  processingCount := 0
  timer := false
  runs := []
  waits := []
  terminated := false

/-- What can happen to a scheduler. -/
inductive Event
  | elapse (milliseconds : Nat)
  | pause
  | resume
  | runScheduledJobs
  | tick
  | initialized (run : Nat)
  /-- The initialisation or the enqueue query of a run is rejected. -/
  | rejected (run : Nat)
  | fetched (run : Nat) (rows : List JobSet)
  /-- The task that a run executes resolves or rejects. -/
  | settled (run : Nat)
  | terminate
  | checkCondition (wait : Nat)
  deriving DecidableEq

/-- The longest time that `waitForChange` waits. -/
def timeout : Nat := 5000

/-- The items of a batch for which there is a task, in the order in which they are published. -/
def publishable (tasks : List String) (rows : List JobSet) : List String :=
  rows.flatMap fun batch => if batch.name ∈ tasks then batch.items else []

namespace State

/-- Begin a run. -/
def begin (state : State) : State := { state with runs := state.runs ++ [.initializing] }

/-- The end of a run, which sets the timer for the next one. -/
def loop (state : State) (run : Nat) : State :=
  { state with
    runs := state.runs.set run .ended
    timer := !state.exiting }

/-- What a run does once it is initialised. -/
def queueScheduledJobs (state : State) (run : Nat) : State :=
  if state.paused then state.loop run
  else if state.exiting then state.loop run
  else { state with runs := state.runs.set run .fetching }

/-- Publish the next item, or leave the batch. -/
def publishNext (state : State) (run : Nat) : List String → State
  | [] => { state with processing := false, processingCount := 0 }.loop run
  | item :: waiting => { state with runs := state.runs.set run (.publishing item waiting) }

/-- Publish a batch. -/
def publishMessages (tasks : List String) (state : State) (run : Nat) (rows : List JobSet) :
    State :=
  if rows.isEmpty then
    state.loop run
  else
    { state with processing := true, processingCount := rows.length }.publishNext run
      (publishable tasks rows)

/-- Stop the next run and begin to wait for the batch. -/
def terminate (state : State) : State :=
  let exiting := { state with exiting := true, timer := false }
  if state.processing then { exiting with waits := state.waits ++ [state.now] }
  else { exiting with terminated := true }

/-- Look whether the batch has been published, and give up when it takes too long. -/
def checkCondition (state : State) (wait startTime : Nat) : State :=
  if state.processing = false ∨ timeout < state.now - startTime then
    { state with waits := state.waits.eraseIdx wait, terminated := true }
  else
    state

end State

/-- One turn of the event loop of a scheduler with the given tasks. -/
def step (tasks : List String) (state : State) : Event → Option State
  | .elapse milliseconds => some { state with now := state.now + milliseconds }
  | .pause => some { state with paused := true }
  | .resume => some { state with paused := false }
  | .runScheduledJobs => some state.begin
  | .tick => if state.timer then some { state with timer := false }.begin else none
  | .initialized run =>
      match state.runs[run]? with
      | some .initializing => some (state.queueScheduledJobs run)
      | _ => none
  | .rejected run =>
      match state.runs[run]? with
      | some .initializing | some .fetching =>
          some { state with runs := state.runs.set run .ended }
      | _ => none
  | .fetched run rows =>
      match state.runs[run]? with
      | some .fetching => some (state.publishMessages tasks run rows)
      | _ => none
  | .settled run =>
      match state.runs[run]? with
      | some (.publishing _ waiting) => some (state.publishNext run waiting)
      | _ => none
  | .terminate => some state.terminate
  | .checkCondition wait =>
      state.waits[wait]?.map (state.checkCondition wait)

/-- A scheduler with the given tasks. -/
def system (tasks : List String) : System State Event := ⟨step tasks⟩

/-- What a step can do. -/
inductive Move (tasks : List String) (before : State) : Event → State → Prop
  | elapse (milliseconds : Nat) :
      Move tasks before (.elapse milliseconds) { before with now := before.now + milliseconds }
  | pause : Move tasks before .pause { before with paused := true }
  | resume : Move tasks before .resume { before with paused := false }
  | runScheduledJobs : Move tasks before .runScheduledJobs before.begin
  | tick (armed : before.timer = true) :
      Move tasks before .tick { before with timer := false }.begin
  | initialized {index : Nat} (found : before.runs[index]? = some .initializing) :
      Move tasks before (.initialized index) (before.queueScheduledJobs index)
  | rejected {index : Nat} {run : Run} (found : before.runs[index]? = some run)
      (pending : run = .initializing ∨ run = .fetching) :
      Move tasks before (.rejected index) { before with runs := before.runs.set index .ended }
  | fetched {index : Nat} (rows : List JobSet) (found : before.runs[index]? = some .fetching) :
      Move tasks before (.fetched index rows) (before.publishMessages tasks index rows)
  | settled {index : Nat} {item : String} {waiting : List String}
      (found : before.runs[index]? = some (.publishing item waiting)) :
      Move tasks before (.settled index) (before.publishNext index waiting)
  | terminate : Move tasks before .terminate before.terminate
  | checkCondition {wait startTime : Nat} (found : before.waits[wait]? = some startTime) :
      Move tasks before (.checkCondition wait) (before.checkCondition wait startTime)

theorem move_of_step {tasks : List String} {before after : State} {event : Event}
    (stepped : (system tasks).step before event = some after) : Move tasks before event after := by
  cases event with
  | elapse milliseconds =>
      obtain rfl := Option.some.inj stepped
      exact .elapse milliseconds
  | pause =>
      obtain rfl := Option.some.inj stepped
      exact .pause
  | resume =>
      obtain rfl := Option.some.inj stepped
      exact .resume
  | runScheduledJobs =>
      obtain rfl := Option.some.inj stepped
      exact .runScheduledJobs
  | tick =>
      simp only [system, step, Option.ite_none_right_eq_some, Option.some.injEq] at stepped
      obtain ⟨armed, rfl⟩ := stepped
      exact .tick armed
  | initialized index =>
      simp only [system, step] at stepped
      split at stepped
      · rename_i found
        obtain rfl := Option.some.inj stepped
        exact .initialized found
      · contradiction
  | rejected index =>
      simp only [system, step] at stepped
      split at stepped
      · rename_i found
        obtain rfl := Option.some.inj stepped
        exact .rejected found (.inl rfl)
      · rename_i found
        obtain rfl := Option.some.inj stepped
        exact .rejected found (.inr rfl)
      · contradiction
  | fetched index rows =>
      simp only [system, step] at stepped
      split at stepped
      · rename_i found
        obtain rfl := Option.some.inj stepped
        exact .fetched rows found
      · contradiction
  | settled index =>
      simp only [system, step] at stepped
      split at stepped
      · rename_i found
        obtain rfl := Option.some.inj stepped
        exact .settled found
      · contradiction
  | terminate =>
      obtain rfl := Option.some.inj stepped
      exact .terminate
  | checkCondition index =>
      obtain ⟨startTime, found, rfl⟩ := Option.map_eq_some_iff.mp stepped
      exact .checkCondition found

/-! ## Termination waits for the running tasks -/

/-- Once a call of `terminate` has resolved, no task is executing. -/
def Still (state : State) : Prop :=
  state.terminated = true → ∀ run ∈ state.runs, run.executing = false

/-- In no state that a scheduler reaches is a task executing after a call of `terminate` has
resolved; a task that is started is executing in the next state. -/
def WaitsForTasks (tasks : List String) : Prop :=
  ∀ now events final, (system tasks).run events (.constructed now) = some final → Still final

/-- `terminate` is not called while an enqueue query is pending, no batch is begun while another
one is being published, and no call of `terminate` finds a batch unfinished when its time is up. -/
def Patient (state : State) : Event → Prop
  | .terminate => ∀ run ∈ state.runs, run ≠ .fetching
  | .fetched _ rows => rows.isEmpty = true ∨ ∀ run ∈ state.runs, run.executing = false
  | .checkCondition wait =>
      ∀ startTime ∈ state.waits[wait]?, state.processing = true → state.now - startTime ≤ timeout
  | _ => True

/-- The run with a number is executing a task. -/
def Executes (runs : List Run) (index : Nat) : Prop :=
  ∃ run, runs[index]? = some run ∧ run.executing = true

/-- What holds of a scheduler as long as everybody is patient: only one run executes tasks and the
flag tells of it, a scheduler that is exiting fetches nothing, and one that has been terminated
executes nothing. -/
structure Calm (state : State) : Prop where
  alone : ∀ left right, Executes state.runs left → Executes state.runs right → left = right
  flagged : ∀ index, Executes state.runs index → state.processing = true
  closed : state.exiting = true → .fetching ∉ state.runs
  waiting : state.waits ≠ [] → state.exiting = true
  silent : state.terminated = true → state.exiting = true ∧ ∀ index, ¬ Executes state.runs index

theorem executes_of_mem {runs : List Run} {run : Run} (member : run ∈ runs)
    (executing : run.executing = true) : ∃ index, Executes runs index := by
  obtain ⟨index, found⟩ := List.mem_iff_getElem?.mp member
  exact ⟨index, run, found, executing⟩

theorem not_executes {runs : List Run} (idle : ∀ run ∈ runs, run.executing = false)
    (index : Nat) : ¬ Executes runs index := by
  rintro ⟨run, found, executing⟩
  rw [idle run (List.mem_of_getElem? found)] at executing
  contradiction

/-- Where a run is set to something that executes nothing, only the other runs execute. -/
theorem executes_set {runs : List Run} {index : Nat} {replacement : Run}
    (idle : replacement.executing = false) {other : Nat}
    (executes : Executes (runs.set index replacement) other) :
    other ≠ index ∧ Executes runs other := by
  obtain ⟨run, found, executing⟩ := executes
  have different : other ≠ index := by
    rintro rfl
    rw [List.getElem?_set_self'] at found
    obtain ⟨_, -, same⟩ := Option.map_eq_some_iff.mp found
    subst same
    change replacement.executing = true at executing
    rw [idle] at executing
    contradiction
  rw [List.getElem?_set_ne (Ne.symm different)] at found
  exact ⟨different, run, found, executing⟩

theorem executes_set_other {runs : List Run} {index other : Nat} {replacement : Run}
    (executes : Executes (runs.set index replacement) other) (different : other ≠ index) :
    Executes runs other := by
  obtain ⟨run, found, executing⟩ := executes
  rw [List.getElem?_set_ne (Ne.symm different)] at found
  exact ⟨run, found, executing⟩

theorem executes_begin {runs : List Run} {index : Nat}
    (executes : Executes (runs ++ [.initializing]) index) : Executes runs index := by
  obtain ⟨run, found, executing⟩ := executes
  rw [List.getElem?_append] at found
  split at found
  · exact ⟨run, found, executing⟩
  · obtain rfl := List.mem_singleton.mp (List.mem_of_getElem? found)
    contradiction

section Steps

variable {tasks : List String} {before after : State}

theorem Calm.begin (calm : Calm before) : Calm before.begin where
  alone left right first second :=
    calm.alone left right (executes_begin first) (executes_begin second)
  flagged index executes := calm.flagged index (executes_begin executes)
  closed exiting := by simpa [State.begin] using calm.closed exiting
  waiting := calm.waiting
  silent terminated :=
    ⟨(calm.silent terminated).1,
      fun index executes => (calm.silent terminated).2 index (executes_begin executes)⟩

/-- A run that executes nothing afterwards, and fetches nothing from a scheduler that is exiting,
keeps the scheduler calm. -/
theorem Calm.set (calm : Calm before) (index : Nat) {replacement : Run}
    (idle : replacement.executing = false)
    (allowed : before.exiting = true → replacement ≠ .fetching) :
    Calm { before with runs := before.runs.set index replacement } where
  alone left right first second :=
    calm.alone left right (executes_set idle first).2 (executes_set idle second).2
  flagged other executes := calm.flagged other (executes_set idle executes).2
  closed exiting member := by
    rcases List.mem_or_eq_of_mem_set member with member | same
    · exact calm.closed exiting member
    · exact allowed exiting same.symm
  waiting := calm.waiting
  silent terminated :=
    ⟨(calm.silent terminated).1,
      fun other executes => (calm.silent terminated).2 other (executes_set idle executes).2⟩

theorem Calm.loop (calm : Calm before) (index : Nat) : Calm (before.loop index) := by
  have ended : Calm { before with runs := before.runs.set index .ended } :=
    calm.set index rfl (by simp)
  exact ⟨ended.alone, ended.flagged, ended.closed, ended.waiting, ended.silent⟩

theorem Calm.queueScheduledJobs (calm : Calm before) (index : Nat) :
    Calm (before.queueScheduledJobs index) := by
  rw [State.queueScheduledJobs]
  split
  · exact calm.loop index
  · split
    · exact calm.loop index
    · rename_i active
      exact calm.set index rfl fun exiting => absurd exiting active

/-- A run that is the only one to execute tasks goes on with its batch or leaves it. -/
theorem calm_publishNext {index : Nat} (waiting : List String)
    (only : ∀ other, Executes before.runs other → other = index)
    (flagged : before.processing = true)
    (closed : before.exiting = true → .fetching ∉ before.runs)
    (waits : before.waits ≠ [] → before.exiting = true)
    (ongoing : before.terminated = false) : Calm (before.publishNext index waiting) := by
  cases waiting with
  | nil =>
      have none_executes : ∀ other, ¬ Executes (before.runs.set index .ended) other := by
        intro other executes
        obtain ⟨different, executes⟩ := executes_set rfl executes
        exact different (only other executes)
      refine ⟨fun left _ first _ => absurd first (none_executes left),
        fun other executes => absurd executes (none_executes other), fun exiting member => ?_,
        waits, fun terminated => absurd terminated
          (by simp [State.publishNext, State.loop, ongoing])⟩
      rcases List.mem_or_eq_of_mem_set member with member | same
      · exact closed exiting member
      · contradiction
  | cons item waiting =>
      have only_this : ∀ other,
          Executes (before.runs.set index (.publishing item waiting)) other → other = index := by
        intro other executes
        by_contra different
        exact different (only other (executes_set_other executes different))
      refine ⟨fun left right first second => ?_, fun _ _ => flagged, fun exiting member => ?_,
        waits, fun terminated => absurd terminated (by simp [State.publishNext, ongoing])⟩
      · rw [only_this left first, only_this right second]
      · rcases List.mem_or_eq_of_mem_set member with member | same
        · exact closed exiting member
        · contradiction

theorem Calm.fetched (calm : Calm before) {index : Nat} {rows : List JobSet}
    (fetching : before.runs[index]? = some .fetching)
    (patient : rows.isEmpty = true ∨ ∀ run ∈ before.runs, run.executing = false) :
    Calm (before.publishMessages tasks index rows) := by
  rw [State.publishMessages]
  split
  · exact calm.loop index
  · rename_i filled
    have idle := patient.resolve_left filled
    have member := List.mem_of_getElem? fetching
    have active : before.exiting = false := by
      rw [← Bool.not_eq_true]
      exact fun exiting => calm.closed exiting member
    have ongoing : before.terminated = false := by
      rw [← Bool.not_eq_true]
      exact fun terminated => calm.closed (calm.silent terminated).1 member
    exact calm_publishNext _ (fun other executes => absurd executes (not_executes idle other)) rfl
      calm.closed calm.waiting ongoing

theorem Calm.settled (calm : Calm before) {index : Nat} {item : String} {waiting : List String}
    (publishing : before.runs[index]? = some (.publishing item waiting)) :
    Calm (before.publishNext index waiting) := by
  have executes : Executes before.runs index := ⟨_, publishing, rfl⟩
  have ongoing : before.terminated = false := by
    rw [← Bool.not_eq_true]
    exact fun terminated => (calm.silent terminated).2 index executes
  exact calm_publishNext waiting (fun other others => calm.alone other index others executes)
    (calm.flagged index executes) calm.closed calm.waiting ongoing

theorem Calm.terminate (calm : Calm before) (patient : Patient before .terminate) :
    Calm before.terminate := by
  have closed : Run.fetching ∉ before.runs := fun member => patient _ member rfl
  rw [State.terminate]
  split
  · exact ⟨calm.alone, calm.flagged, fun _ => closed, fun _ => rfl,
      fun terminated => ⟨rfl, (calm.silent terminated).2⟩⟩
  · rename_i free
    exact ⟨calm.alone, calm.flagged, fun _ => closed, fun _ => rfl,
      fun _ => ⟨rfl, fun index executes => free (calm.flagged index executes)⟩⟩

theorem Calm.checkCondition (calm : Calm before) {index startTime : Nat}
    (found : before.waits[index]? = some startTime)
    (patient : Patient before (.checkCondition index)) :
    Calm (before.checkCondition index startTime) := by
  rw [State.checkCondition]
  split
  · rename_i finished
    have free : before.processing = false := by
      rcases finished with free | late
      · exact free
      · rw [← Bool.not_eq_true]
        intro processing
        have inTime := patient startTime found processing
        omega
    have exiting := calm.waiting (List.ne_nil_of_mem (List.mem_of_getElem? found))
    refine ⟨calm.alone, calm.flagged, calm.closed, fun _ => exiting, fun _ => ⟨exiting, ?_⟩⟩
    intro other executes
    have processing := calm.flagged other executes
    rw [free] at processing
    contradiction
  · exact calm

theorem calm_step {event : Event} (calm : Calm before) (patient : Patient before event)
    (stepped : (system tasks).step before event = some after) : Calm after := by
  cases move_of_step stepped with
  | elapse | pause | resume =>
      exact ⟨calm.alone, calm.flagged, calm.closed, calm.waiting, calm.silent⟩
  | runScheduledJobs => exact calm.begin
  | tick =>
      have untimed : Calm { before with timer := false } :=
        ⟨calm.alone, calm.flagged, calm.closed, calm.waiting, calm.silent⟩
      exact untimed.begin
  | initialized => exact calm.queueScheduledJobs _
  | rejected => exact calm.set _ rfl (by simp)
  | fetched rows fetching => exact calm.fetched fetching patient
  | settled publishing => exact calm.settled publishing
  | terminate => exact calm.terminate patient
  | checkCondition found => exact calm.checkCondition found patient

end Steps

/-- Where `terminate` is not called during an enqueue query, batches are published one at a time
and every batch is finished in time, no task is executing or started once `terminate` has
resolved. -/
theorem still_of_patient (tasks : List String) (now : Nat) {events : List Event} {final : State}
    (patient : (system tasks).Along Patient events (.constructed now))
    (execution : (system tasks).run events (.constructed now) = some final) : Still final := by
  have idle : ∀ index, ¬ Executes (State.constructed now).runs index :=
    not_executes (by simp [State.constructed])
  have start : Calm (.constructed now) :=
    { alone := fun left _ first _ => absurd first (idle left)
      flagged := fun index executes => absurd executes (idle index)
      closed := fun _ => by simp [State.constructed]
      waiting := fun waits => absurd rfl waits
      silent := fun terminated => Bool.noConfusion terminated }
  have preserved : ∀ before event after, Calm before → Patient before event →
      (system tasks).step before event = some after → Calm after :=
    fun _ _ _ calm patient stepped => calm_step calm patient stepped
  have calm := System.invariant_run preserved start patient execution
  intro terminated run member
  rw [← Bool.not_eq_true]
  intro executing
  obtain ⟨index, executes⟩ := executes_of_mem member executing
  exact (calm.silent terminated).2 index executes

instance decidablePatient (state : State) : ∀ event, Decidable (Patient state event)
  | .terminate => inferInstanceAs (Decidable (∀ run ∈ state.runs, run ≠ .fetching))
  | .fetched _ rows =>
      inferInstanceAs (Decidable (rows.isEmpty = true ∨ ∀ run ∈ state.runs, run.executing = false))
  | .checkCondition wait =>
      inferInstanceAs (Decidable (∀ startTime ∈ state.waits[wait]?,
        state.processing = true → state.now - startTime ≤ timeout))
  | .elapse _ | .pause | .resume | .runScheduledJobs | .tick | .initialized _ | .rejected _
  | .settled _ => isTrue trivial

/-- A batch with one item. -/
def oneBatch : List JobSet := [⟨"report", ["1"]⟩]

/-- A call of `terminate` that waits for the task of the batch. -/
theorem still_after_batch :
    ∃ final, (system ["report"]).run
        [.runScheduledJobs, .initialized 0, .fetched 0 oneBatch, .terminate, .elapse 50,
          .checkCondition 0, .settled 0, .elapse 50, .checkCondition 0] (.constructed 0) =
            some final ∧ final.terminated = true ∧ Still final := by
  have patient : (system ["report"]).Along Patient
      [.runScheduledJobs, .initialized 0, .fetched 0 oneBatch, .terminate, .elapse 50,
        .checkCondition 0, .settled 0, .elapse 50, .checkCondition 0] (.constructed 0) := by
    decide
  exact ⟨_, rfl, rfl, still_of_patient ["report"] 0 patient rfl⟩

/-- A call of `terminate` during the enqueue query resolves before the batch is begun. -/
theorem pending_query_not_awaited : ¬ WaitsForTasks ["report"] := by
  intro waits
  have still := waits 0
    [.runScheduledJobs, .initialized 0, .terminate, .fetched 0 oneBatch] _ rfl
  have idle := still rfl (.publishing "1" []) List.mem_cons_self
  contradiction

end Termination

end Steveo.Scheduler
