import Steveo.Scheduler.Overlap

/-!
# The retry limit

A failed job is released again while its counter of failures is below the limit.  The executions of
a job since it last succeeded stay within one more than the limit as long as maintenance passes
leave the row of a job alone that has failed, and every failure is counted before the job is
enqueued again.
-/

namespace Steveo.Scheduler.Fleet

variable {fleet : Fleet} {id : String}

/-- A ticket that has not been dealt with. -/
def Stage.active : Stage → Bool
  | .settled => false
  | _ => true

/-- A failure that may have released the row is to be counted once more. -/
def Stage.isCounting : Stage → Bool
  | .counting _ => true
  | _ => false

/-- The task has succeeded, and its next run is to be stored. -/
def Stage.isStoring : Stage → Bool
  | .storing _ _ => true
  | _ => false

/-- The executions of a job since its last success, after one more deed. -/
def tally (count : Nat) : Deed → Nat
  | .called => count + 1
  | .duration true => 0
  | .duration false | .emitted _ => count

/-- The executions of a job since its last success. -/
def streak (id : String) (log : List Entry) : Nat :=
  ((log.filter fun entry => entry.job = id).map fun entry => entry.deed).foldl tally 0

theorem streak_own (log : List Entry) (deeds : List Deed) :
    streak id (log ++ deeds.map (Entry.mk id)) = deeds.foldl tally (streak id log) := by
  simp [streak, List.filter_append, List.filter_map, Function.comp_def]

theorem streak_other {job : String} (other : job ≠ id) (log : List Entry) (deeds : List Deed) :
    streak id (log ++ deeds.map (Entry.mk job)) = streak id log := by
  simp [streak, List.filter_append, List.filter_map, Function.comp_def, other]

/-- Maintenance passes leave the row of a job alone unless it is below the limit, has not been
executed since its last success and has no ticket; no tick enqueues it before its last failure has
been counted; and the Sequelize scheduler does not fail to store that it has finished. -/
def Fair (fleet : Fleet) (id : String) (state : State) (event : Event) : Prop :=
  (state.touches fleet id event = true →
    (∀ row ∈ state.table.find id, row.failures < fleet.settings.maxRestartsOnFailure) ∧
      streak id state.log = 0 ∧
        ∀ ticket ∈ state.tickets, ticket.job = id → ticket.stage.active = false) ∧
  match event with
  | .enqueue _ ids =>
      id ∈ ids → ∀ ticket ∈ state.tickets, ticket.job = id → ticket.stage.isCounting = false
  | .act index (.refused _) =>
      ∀ ticket ∈ state.tickets[index]?, ticket.job = id → fleet.package = .sequelize →
        ticket.stage.isStoring = false
  | _ => True

instance (fleet : Fleet) (id : String) (state : State) (event : Event) :
    Decidable (Fair fleet id state event) := by
  unfold Fair
  split <;> infer_instance

/-! ## What a ticket knows about its job -/

section Budget

variable (limit count : Nat) (row : Option JobRow)

/-- The job may be executed once more. -/
def Ready : Prop :=
  count ≤ limit ∧ ∀ present ∈ row, present.queued = true ∧ count ≤ present.failures

/-- The job has been executed, and the row is still queued. -/
def Held : Prop := count ≤ limit + 1 ∧ ∀ present ∈ row, present.queued = true

/-- The job has been executed, and the ticket knows how often it had failed before. -/
def Tried (failures : Nat) : Prop :=
  count ≤ limit + 1 ∧ ∀ present ∈ row, present.queued = true ∧
    count ≤ present.failures + 1 ∧ failures = present.failures

/-- Where the row has been released, the job may be executed once more. -/
def Rested : Prop :=
  count ≤ limit + 1 ∧ ∀ present ∈ row, present.queued = false →
    count ≤ limit ∧ count ≤ present.failures

/-- What holds of a job at the stage of its ticket. -/
def Budget : Stage → Prop
  | .waiting | .sent | .lookingUp => Ready limit count row
  | .starting loaded =>
      Ready limit count row ∧ ∀ present ∈ row, loaded.failures = present.failures
  | .executing none | .maintaining none _ => Held limit count row
  | .executing (some loaded) | .maintaining (some loaded) _ | .finishing loaded
  | .deleting loaded | .storing loaded _ => Tried limit count row loaded.failures
  | .failing loaded =>
      Tried limit count row loaded.values.failures ∧ loaded.unsaved.queued = none
  | .requeueing found => Tried limit count row found.failures ∧ found.failures < limit
  | .counting found =>
      Rested limit count row ∧
        ∀ present ∈ row, present.queued = false → present.failures = found.failures + 1
  | .settled => Rested limit count row

variable {limit count row}

theorem Ready.held (ready : Ready limit count row) : Held limit count row :=
  ⟨Nat.le_succ_of_le ready.1, fun present found => (ready.2 present found).1⟩

theorem Tried.held {failures : Nat} (tried : Tried limit count row failures) :
    Held limit count row := ⟨tried.1, fun present found => (tried.2 present found).1⟩

theorem Held.rested (held : Held limit count row) : Rested limit count row := by
  refine ⟨held.1, fun present found released => ?_⟩
  exact absurd (released.symm.trans (held.2 present found)) Bool.false_ne_true

/-- Nothing is owed after a success. -/
theorem rested_zero : Rested limit 0 row :=
  ⟨Nat.zero_le _, fun _ _ _ => ⟨Nat.zero_le _, Nat.zero_le _⟩⟩

/-- A ticket may be dropped at any stage. -/
theorem Budget.rested {stage : Stage} (budget : Budget limit count row stage) :
    Rested limit count row := by
  cases stage with
  | waiting | sent | lookingUp => exact Ready.held budget |>.rested
  | starting loaded => exact budget.1.held.rested
  | executing loaded =>
      cases loaded with
      | none => exact Held.rested budget
      | some loaded => exact Tried.held budget |>.rested
  | maintaining loaded progress =>
      cases loaded with
      | none => exact Held.rested budget
      | some loaded => exact Tried.held budget |>.rested
  | finishing loaded | deleting loaded | storing loaded nextRunAt =>
      exact Tried.held budget |>.rested
  | failing loaded => exact budget.1.held.rested
  | requeueing found => exact budget.1.held.rested
  | counting found => exact budget.1
  | settled => exact budget

/-- A row that a ticket at some stage has not released is queued, unless its failure is being
counted. -/
theorem Budget.queued {stage : Stage} (budget : Budget limit count row stage)
    (active : stage.active = true) (uncounted : stage.isCounting = false) :
    ∀ present ∈ row, present.queued = true := by
  cases stage with
  | waiting | sent | lookingUp => exact (Ready.held budget).2
  | starting loaded => exact budget.1.held.2
  | executing loaded =>
      cases loaded with
      | none => exact budget.2
      | some loaded => exact (Tried.held budget).2
  | maintaining loaded progress =>
      cases loaded with
      | none => exact budget.2
      | some loaded => exact (Tried.held budget).2
  | finishing loaded | deleting loaded | storing loaded nextRunAt => exact (Tried.held budget).2
  | failing loaded => exact budget.1.held.2
  | requeueing found => exact budget.1.held.2
  | counting found => cases uncounted
  | settled => cases active

end Budget

/-! ## Columns that count failures -/

/-- Columns that an update does not assign are not written, unless they were assigned before. -/
theorem columns_queued {loaded : JobInstance} {change : RowUpdate}
    (unassigned : change.queued = none)
    (saved : loaded.unsaved.queued = none) : (fleet.columns loaded change).queued = none := by
  rw [columns]
  split
  · exact unassigned
  · simp only [JobInstance.assign, assigned, unassigned, true_or, if_true, saved]

/-- A failure that is counted changes the counter, so that it is written. -/
theorem columns_failures {loaded : JobInstance} {change : RowUpdate}
    (counts : change.failures = some (loaded.values.failures + 1)) :
    (fleet.columns loaded change).failures = some (loaded.values.failures + 1) := by
  rw [columns]
  split
  · exact counts
  · simp [JobInstance.assign, assigned, counts]

theorem columns_accepted_failures {now : Int} (loaded : JobRow) :
    (fleet.columns { values := loaded } { acceptedAt := some now }).failures = none := by
  rw [columns]
  split <;> rfl

/-- The counter of a loaded row does not change when the job is accepted. -/
theorem saved_accepted_failures {now : Int} (loaded : JobRow) :
    (fleet.saved loaded { acceptedAt := some now }).failures = loaded.failures := by
  rw [saved]
  split <;> rfl

/-- A row after a write that is about it or not. -/
theorem onRow_write {row : Option JobRow} {condition : JobRow → Bool} {update : RowUpdate}
    {after : JobRow} (found : after ∈ row.bind (Statement.write condition update).onRow) :
    ∃ before ∈ row, (after = update.apply before ∧ condition before = true) ∨ after = before := by
  obtain ⟨before, present, becomes⟩ := Option.bind_eq_some_iff.mp found
  refine ⟨before, present, ?_⟩
  obtain rfl := Option.some.inj becomes
  by_cases selected : condition before = true
  · exact Or.inl ⟨if_pos selected, selected⟩
  · exact Or.inr (if_neg selected)

@[simp] theorem bind_read (row : Option JobRow) : row.bind Statement.read.onRow = row := by
  cases row <;> rfl

/-! ## What an answer keeps -/

section Answers

variable {limit count : Nat} {row : Option JobRow} {now : Int} {table : JobTable} {ticket : Ticket}
  {outcome : Outcome} {choice : Nat}

theorem budget_execute_none (held : Held limit count row) (statement : Statement) :
    Budget limit count row (ticket.execute none statement).stage :=
  Ticket.execute_induction (motive := Budget limit count row) (fun _ => held) held

theorem budget_execute_some {loaded : JobRow} (tried : Tried limit count row loaded.failures)
    (statement : Statement) :
    Budget limit count row (ticket.execute (some loaded) statement).stage :=
  Ticket.execute_induction (motive := Budget limit count row) (fun _ => tried) tried

theorem budget_failing {loaded : JobRow} (tried : Tried limit count row loaded.failures) :
    Budget limit count row (.failing { values := loaded }) := ⟨tried, rfl⟩

theorem budget_dispose {loaded found : JobRow} (tried : Tried limit count row loaded.failures) :
    Budget limit count row (Ticket.dispose fleet now loaded found) :=
  Ticket.dispose_induction (motive := Budget limit count row) tried (fun _ => tried)
    (budget_failing tried)

theorem budget_finish {loaded : JobRow} (tried : Tried limit count row loaded.failures) :
    Budget limit count row (Ticket.finish fleet now (some loaded)) := by
  have same : ∀ other ∈ some loaded, Tried limit count row other.failures := by
    intro other known
    obtain rfl := Option.some.inj known
    exact tried
  exact Ticket.finish_induction (motive := Budget limit count row) nofun same same
    (fun other known _ => same other known) fun other known => budget_failing (same other known)

/-- The budget after an answer: what has been observed is counted, and the row may have changed. -/
def Keeps (fleet : Fleet) (table : JobTable) (ticket : Ticket) (count : Nat) (outcome : Outcome) :
    Prop :=
  Budget fleet.settings.maxRestartsOnFailure (outcome.deeds.foldl tally count)
    ((table.find ticket.job).bind outcome.statement.onRow) outcome.stage

theorem keeps_called
    (ready : Ready fleet.settings.maxRestartsOnFailure count (table.find ticket.job)) :
    Keeps fleet table ticket count (ticket.execute none .read) := by
  have held : Held fleet.settings.maxRestartsOnFailure (count + 1) (table.find ticket.job) :=
    ⟨Nat.succ_le_succ ready.1, ready.held.2⟩
  have read : (ticket.execute none .read).statement = .read := rfl
  rw [Keeps, read, bind_read]
  simpa [Ticket.execute, tally] using budget_execute_none held .read

theorem keeps_help
    (ready : Ready fleet.settings.maxRestartsOnFailure count (table.find ticket.job)) :
    Keeps fleet table ticket count (ticket.help fleet) := by
  rcases @Ticket.help_cases fleet ticket with same | ⟨-, -, same⟩
  · rw [same, Keeps, bind_read]
    exact ready
  · rw [same, Keeps, bind_read]
    exact ready.held.rested

theorem keeps_consume
    (ready : Ready fleet.settings.maxRestartsOnFailure count (table.find ticket.job)) :
    Keeps fleet table ticket count (ticket.consume fleet) := by
  rw [Ticket.consume]
  split
  · rw [Keeps, bind_read]
    exact ready
  · exact keeps_called ready

theorem keeps_launch
    (ready : Ready fleet.settings.maxRestartsOnFailure count (table.find ticket.job)) :
    Keeps fleet table ticket count (ticket.launch fleet) := by
  rw [Ticket.launch]
  split
  · exact keeps_help ready
  · split
    · rw [Keeps, bind_read]
      exact ready.held.rested
    · split
      · rw [Keeps, bind_read]
        exact ready
      · split
        · exact keeps_help ready
        · exact keeps_called ready

/-- A ticket that is dealt with leaves no debt. -/
theorem keeps_settle_false
    (rested : Rested fleet.settings.maxRestartsOnFailure count (table.find ticket.job)) :
    Keeps fleet table ticket count (Ticket.settle false .read) := by
  change Rested _ _ ((table.find ticket.job).bind Statement.read.onRow)
  rw [bind_read]
  exact rested

theorem keeps_settle_true (statement : Statement) :
    Keeps fleet table ticket count (Ticket.settle true statement) := by
  have fresh : (Ticket.settle true statement).deeds.foldl tally count = 0 := by
    simp [Ticket.settle, tally]
  rw [Keeps, fresh]
  exact rested_zero

/-- A failure has been counted in the same statement that may release the row. -/
theorem keeps_settle_failed {loaded : JobInstance} {change : RowUpdate}
    (tried : Tried fleet.settings.maxRestartsOnFailure count (table.find ticket.job)
      loaded.values.failures)
    (counts : change.failures = some (loaded.values.failures + 1))
    (limited : (fleet.columns loaded change).queued = none ∨
      loaded.values.failures < fleet.settings.maxRestartsOnFailure) :
    Keeps fleet table ticket count (Ticket.settle false
      (.write (fleet.addresses ticket.job) (fleet.columns loaded change))) := by
  refine ⟨tried.1, fun after found released => ?_⟩
  obtain ⟨before, present, ⟨rfl, -⟩ | rfl⟩ := onRow_write found
  · obtain ⟨queued, counted, same⟩ := tried.2 before present
    rw [RowUpdate.apply_failures, columns_failures counts, Option.getD_some]
    rcases limited with kept | below
    · rw [RowUpdate.apply_queued, kept, Option.getD_none, queued] at released
      cases released
    · change count ≤ _ ∧ count ≤ loaded.values.failures + 1
      exact ⟨by omega, by omega⟩
  · obtain ⟨queued, -, -⟩ := tried.2 after present
    exact absurd (released.symm.trans queued) Bool.false_ne_true

/-- A release that is still to be counted again. -/
theorem keeps_requeueing {found : JobRow} {change : RowUpdate}
    (tried : Tried fleet.settings.maxRestartsOnFailure count (table.find ticket.job) found.failures)
    (below : found.failures < fleet.settings.maxRestartsOnFailure)
    (counts : change.failures = some (found.failures + 1)) :
    Keeps fleet table ticket count
      { stage := .counting found
        statement := .write (fleet.addresses ticket.job)
          (fleet.columns { values := found } change) } := by
  have written : (fleet.columns { values := found } change).failures =
      some (found.failures + 1) := columns_failures counts
  refine ⟨⟨tried.1, fun after located released => ?_⟩, fun after located released => ?_⟩
  · obtain ⟨before, present, ⟨rfl, -⟩ | rfl⟩ := onRow_write located
    · obtain ⟨-, counted, same⟩ := tried.2 before present
      rw [RowUpdate.apply_failures, written, Option.getD_some]
      change count ≤ _ ∧ count ≤ found.failures + 1
      exact ⟨by omega, by omega⟩
    · obtain ⟨queued, -, -⟩ := tried.2 after present
      exact absurd (released.symm.trans queued) Bool.false_ne_true
  · obtain ⟨before, present, ⟨rfl, -⟩ | rfl⟩ := onRow_write located
    · rw [RowUpdate.apply_failures, written, Option.getD_some]
    · obtain ⟨queued, -, -⟩ := tried.2 after present
      exact absurd (released.symm.trans queued) Bool.false_ne_true

/-- The failure is counted a second time, from the row that was read before. -/
theorem keeps_counting {found : JobRow} {condition : JobRow → Bool}
    (budget : Budget fleet.settings.maxRestartsOnFailure count (table.find ticket.job)
      (.counting found)) :
    Keeps fleet table ticket count
      (Ticket.settle false (.write condition (failed now found))) := by
  obtain ⟨rested, same⟩ := budget
  refine ⟨rested.1, fun after located released => ?_⟩
  obtain ⟨before, present, ⟨rfl, -⟩ | rfl⟩ := onRow_write located
  · have early : before.queued = false := released
    have counted := rested.2 before present early
    rw [same before present early] at counted
    exact counted
  · exact rested.2 after present released

/-- The task of an accepted job is called. -/
theorem keeps_accepted {loaded : JobRow}
    (ready : Ready fleet.settings.maxRestartsOnFailure count (table.find ticket.job))
    (same : ∀ present ∈ table.find ticket.job, loaded.failures = present.failures) :
    Keeps fleet table ticket count
      (ticket.execute (some (fleet.saved loaded { acceptedAt := some now }))
        (.write (fleet.addresses ticket.job)
          (fleet.columns { values := loaded } { acceptedAt := some now }))) := by
  have called : (Ticket.execute ticket (some (fleet.saved loaded { acceptedAt := some now }))
      (.write (fleet.addresses ticket.job) (fleet.columns { values := loaded }
        { acceptedAt := some now }))).deeds.foldl tally count = count + 1 := by
    simp [Ticket.execute, tally]
  rw [Keeps, called]
  refine budget_execute_some ⟨Nat.succ_le_succ ready.1, fun after located => ?_⟩ _
  rw [saved_accepted_failures]
  obtain ⟨before, present, ⟨rfl, -⟩ | rfl⟩ := onRow_write located
  · obtain ⟨queued, counted⟩ := ready.2 before present
    rw [RowUpdate.apply_queued, columns_accepted, RowUpdate.apply_failures,
      columns_accepted_failures]
    exact ⟨queued, Nat.succ_le_succ counted, same before present⟩
  · obtain ⟨queued, counted⟩ := ready.2 after present
    exact ⟨queued, Nat.succ_le_succ counted, same after present⟩

/-- Events are not counted. -/
theorem tally_emitted (notices : List Notice) (count : Nat) :
    (notices.map Deed.emitted).foldl tally count = count := by
  induction notices with
  | nil => rfl
  | cons notice notices induction => exact induction

/-- A maintenance pass that leaves the row of its own job alone continues or ends. -/
theorem keeps_proceed {loaded : Option JobRow} {progress : Progress} {statement : Statement}
    {next : Option Progress × List Notice}
    (budget : Budget fleet.settings.maxRestartsOnFailure count (table.find ticket.job)
      (.maintaining loaded progress))
    (quiet : (table.find ticket.job).bind statement.onRow = table.find ticket.job) :
    Keeps fleet table ticket count (Ticket.proceed fleet now loaded statement next) := by
  rw [Keeps, Ticket.proceed, tally_emitted, quiet]
  cases continues : next.1 with
  | some following => cases loaded <;> exact budget
  | none =>
      cases loaded with
      | none => exact Held.rested budget
      | some loaded => exact budget_finish budget

/-- A row that the ticket's own pass does not select stays as it is. -/
theorem bind_of_quiet {statement : Statement}
    (quiet : ∀ present ∈ row, statement.selects present = false) :
    row.bind statement.onRow = row := by
  cases row with
  | none => rfl
  | some present => exact Statement.onRow_of_not_selects (quiet present rfl)

/-- The Prisma scheduler goes on as after a failure when it has deleted a row. -/
theorem keeps_delete {loaded : JobRow} {condition : JobRow → Bool}
    (tried : Tried fleet.settings.maxRestartsOnFailure count (table.find ticket.job)
      loaded.failures) :
    Keeps fleet table ticket count
      { stage := .failing { values := loaded }, statement := .delete condition } := by
  refine ⟨⟨tried.1, fun after located => ?_⟩, rfl⟩
  obtain ⟨before, present, becomes⟩ := Option.bind_eq_some_iff.mp located
  simp only [Statement.onRow] at becomes
  split at becomes
  · cases becomes
  · obtain rfl := Option.some.inj becomes
    exact tried.2 before present

/-- The row of a failed job that is read again is requeued while its failures are below the limit,
and otherwise only counted. -/
theorem budget_reread {loaded : JobInstance} {found : JobRow}
    (budget : Budget fleet.settings.maxRestartsOnFailure count row (.failing loaded))
    (present : found ∈ row) :
    Budget fleet.settings.maxRestartsOnFailure count row
      (if fleet.retries found then .requeueing found else .counting found) := by
  split
  · rename_i retries
    refine ⟨⟨budget.1.1, fun other located => ?_⟩,
      of_decide_eq_true ((Bool.and_eq_true _ _).mp retries).1⟩
    obtain rfl := Option.mem_unique located present
    obtain ⟨queued, counted, -⟩ := budget.1.2 other present
    exact ⟨queued, counted, rfl⟩
  · refine ⟨budget.1.held.rested, fun other located released => ?_⟩
    exact absurd (released.symm.trans (budget.1.2 other located).1) Bool.false_ne_true

/-- Every answer to a ticket keeps the budget of its job, unless the Sequelize scheduler fails to
store that the job has finished. -/
theorem keeps_answer {answer : Answer}
    (budget : Budget fleet.settings.maxRestartsOnFailure count (table.find ticket.job) ticket.stage)
    (quiet : ∀ present ∈ table.find ticket.job,
      ticket.maintains fleet now answer present = false)
    (stored : ∀ choice, answer = .refused choice → fleet.package = .sequelize →
      ticket.stage.isStoring = false)
    (answered : ticket.answer fleet now table answer = some outcome) :
    Keeps fleet table ticket count outcome := by
  have read : ∀ {stage}, Budget fleet.settings.maxRestartsOnFailure count (table.find ticket.job)
      stage → Keeps fleet table ticket count { stage := stage } := by
    intro stage budget
    change Budget _ _ ((table.find ticket.job).bind Statement.read.onRow) _
    rw [bind_read]
    exact budget
  cases Ticket.reaction answered with
  | launched stage =>
      rw [stage] at budget
      exact keeps_launch budget
  | consumed stage =>
      rw [stage] at budget
      exact keeps_consume budget
  | @succeeded loaded stage =>
      rw [stage] at budget
      cases loaded with
      | none => exact read (Held.rested budget)
      | some loaded => exact read (budget_finish budget)
  | @failed loaded stage =>
      rw [stage] at budget
      cases loaded with
      | none => exact read (Held.rested budget)
      | some loaded => exact read (budget_failing budget)
  | unwrapped stage =>
      rw [stage] at budget
      have held : Held fleet.settings.maxRestartsOnFailure (count + 1) (table.find ticket.job) :=
        ⟨Nat.succ_le_succ budget.1, (Ready.held budget).2⟩
      have kept : Budget _ _ _ (ticket.execute none .read).stage := budget_execute_none held .read
      rw [← bind_read (table.find ticket.job)] at kept
      simpa [Keeps, Ticket.execute, tally] using kept
  | @found choice row stage located =>
      rw [stage] at budget
      have present := (Option.filter_eq_some_iff.mp located).1
      have loaded : Budget fleet.settings.maxRestartsOnFailure count (table.find ticket.job)
          (.starting row) := by
        refine ⟨budget, fun other found => ?_⟩
        rw [Option.mem_unique found present]
      exact read loaded
  | accepted stage =>
      rw [stage] at budget
      exact keeps_accepted budget.1 budget.2
  | continued stage continues =>
      rw [stage] at budget
      simp only [Ticket.maintains, stage] at quiet
      exact keeps_proceed budget (bind_of_quiet quiet)
  | interrupted stage continues =>
      rw [stage] at budget
      exact keeps_proceed budget (bind_read _)
  | disposed stage present =>
      rw [stage] at budget
      exact read (budget_dispose budget)
  | deleted stage =>
      rw [stage] at budget
      exact keeps_delete budget
  | unstored stage =>
      rw [stage] at budget
      exact read (budget_failing budget)
  | @unfinished choice loaded stage =>
      have tried : Tried fleet.settings.maxRestartsOnFailure count (table.find ticket.job)
          loaded.failures := by
        rcases stage with stage | stage | ⟨-, nextRunAt, stage⟩ <;> rw [stage] at budget <;>
          exact budget
      exact read (budget_failing tried)
  | unsaved stage sequelize =>
      have other := stored _ rfl sequelize
      rw [stage] at other
      cases other
  | @reread choice loaded row stage prisma located =>
      rw [stage] at budget
      exact read (budget_reread budget (Option.filter_eq_some_iff.mp located).1)
  | saved stage sequelize =>
      rw [stage] at budget
      refine keeps_settle_failed budget.1 ?_ ?_
      · split <;> rfl
      · split
        · rename_i retries
          exact Or.inr (of_decide_eq_true ((Bool.and_eq_true _ _).mp retries).1)
        · exact Or.inl (columns_queued rfl budget.2)
  | requeued stage =>
      rw [stage] at budget
      exact keeps_requeueing budget.1 budget.2 rfl
  | counted stage =>
      rw [stage] at budget
      exact keeps_counting budget
  | vanished | destroyed | stored => exact keeps_settle_true _
  | unaccepted | thrown => exact read budget.rested
  | forgotten | unretried | uncounted => exact keeps_settle_false budget.rested

/-- Once the limit is reached, the row is released only when the job has succeeded. -/
theorem success_of_releases {answer : Answer} {present after : JobRow}
    (budget : Budget fleet.settings.maxRestartsOnFailure count (table.find ticket.job) ticket.stage)
    (quiet : ticket.maintains fleet now answer present = false)
    (answered : ticket.answer fleet now table answer = some outcome)
    (found : table.find ticket.job = some present) (queued : present.queued = true)
    (spent : fleet.settings.maxRestartsOnFailure ≤ present.failures)
    (becomes : outcome.statement.onRow present = some after) (released : after.queued = false) :
    outcome.deeds.foldl tally count = 0 := by
  cases releases_of_answer answered quiet becomes queued released with
  | finished stage statement => simp [Ticket.settle, tally]
  | @failed loaded stage choice =>
      -- the loaded counter is that of the row, so the job is not tried again
      rw [stage] at budget
      obtain ⟨-, -, same⟩ := budget.1.2 present found
      have given : fleet.retries loaded.values = false := by
        rw [Bool.eq_false_iff]
        intro retries
        have below := of_decide_eq_true ((Bool.and_eq_true _ _).mp retries).1
        omega
      simp only [given, Bool.false_eq_true, if_false] at becomes
      obtain rfl := Option.some.inj becomes
      split at released
      · rw [RowUpdate.apply_queued, columns_queued rfl budget.2, Option.getD_none, queued]
          at released
        cases released
      · rw [queued] at released
        cases released
  | @requeued given stage statement =>
      rw [stage] at budget
      obtain ⟨-, -, same⟩ := budget.1.2 present found
      have below := budget.2
      omega

end Answers

/-! ## Every run -/

/-- At most one ticket of a job is active; it keeps the budget of the job, and without one the
budget of a settled ticket holds.  A job without tickets has not been executed. -/
structure Limited (fleet : Fleet) (id : String) (state : State) : Prop where
  single : Single Stage.active id state.tickets
  budget : ∀ ticket ∈ state.tickets, ticket.job = id → ticket.stage.active = true →
    Budget fleet.settings.maxRestartsOnFailure (streak id state.log) (state.table.find id)
      ticket.stage
  rest : (∀ ticket ∈ state.tickets, ticket.job = id → ticket.stage.active = false) →
    Rested fleet.settings.maxRestartsOnFailure (streak id state.log) (state.table.find id)
  unused : (∀ ticket ∈ state.tickets, ticket.job ≠ id) → streak id state.log = 0

theorem limited_initial (now : Int) (table : JobTable) :
    Limited fleet id (State.initial now table) where
  single _ _ _ _ isFirst := by cases isFirst
  budget _ member := by cases member
  rest _ := rested_zero
  unused _ := rfl

theorem Limited.rested {state : State} (limited : Limited fleet id state) :
    Rested fleet.settings.maxRestartsOnFailure (streak id state.log) (state.table.find id) := by
  by_cases idle : ∀ ticket ∈ state.tickets, ticket.job = id → ticket.stage.active = false
  · exact limited.rest idle
  · push Not at idle
    obtain ⟨ticket, member, job, active⟩ := idle
    exact (limited.budget ticket member job (Bool.eq_true_of_not_eq_false active)).rested

/-- A ticket that is answered is active. -/
theorem active_of_answer {now : Int} {table : JobTable} {ticket : Ticket} {answer : Answer}
    {outcome : Outcome} (answered : ticket.answer fleet now table answer = some outcome) :
    ticket.stage.active = true := by
  cases stage : ticket.stage with
  | settled =>
      cases answer <;>
        simp only [Ticket.answer, Ticket.answered, Ticket.refused, stage] at answered <;>
        cases answered
  | _ => rfl

section Steps

variable {before : State} {index : Nat} {ticket : Ticket} {answer : Answer} {outcome : Outcome}

/-- An answer to a ticket of the job, other than a maintenance statement about its row. -/
theorem Limited.act_own (limited : Limited fleet id before)
    (found : before.tickets[index]? = some ticket) (own : ticket.job = id)
    (answered : ticket.answer fleet before.now before.table answer = some outcome)
    (quiet : ∀ row ∈ before.table.find id, ticket.maintains fleet before.now answer row = false)
    (stored : ∀ choice, answer = .refused choice → fleet.package = .sequelize →
      ticket.stage.isStoring = false) :
    Limited fleet id (before.advance index ticket answer outcome) := by
  subst own
  have active := active_of_answer answered
  have kept : Keeps fleet before.table ticket (streak ticket.job before.log) outcome :=
    keeps_answer (limited.budget ticket (List.mem_of_getElem? found) rfl active) quiet stored
      answered
  have budget : Budget fleet.settings.maxRestartsOnFailure
      (streak ticket.job (before.advance index ticket answer outcome).log)
      ((before.advance index ticket answer outcome).table.find ticket.job) outcome.stage := by
    simp only [State.advance, streak_own, Statement.find_apply]
    exact kept
  have advanced : ticket.advanced answer outcome.stage ∈
      (before.advance index ticket answer outcome).tickets :=
    List.mem_set (List.getElem?_eq_some_iff.mp found).1 _
  refine ⟨limited.single.dwindle (dwindles_advance found fun _ => active), ?_, ?_, ?_⟩
  · intro later member job counts
    rcases mem_advance found member with rfl | ⟨position, other, isLater⟩
    · exact budget
    · exact absurd (limited.single position index later ticket isLater found job rfl counts active)
        other
  · exact fun _ => budget.rested
  · intro unused
    exact absurd rfl (unused (ticket.advanced answer outcome.stage) advanced)

/-- An answer to a ticket of another job that leaves the row of the job alone. -/
theorem Limited.act_other (limited : Limited fleet id before)
    (found : before.tickets[index]? = some ticket) (other : ticket.job ≠ id)
    (same : (outcome.statement.apply before.table).find id = before.table.find id)
    (active : ticket.stage.active = true) :
    Limited fleet id (before.advance index ticket answer outcome) := by
  have counted : streak id (before.advance index ticket answer outcome).log =
      streak id before.log := streak_other other _ _
  have located : (before.advance index ticket answer outcome).table.find id =
      before.table.find id := same
  have dwindles : Dwindles Stage.active before.tickets
      (before.advance index ticket answer outcome).tickets :=
    dwindles_advance found fun _ => active
  have kept : ∀ later ∈ before.tickets, later.job = id →
      later ∈ (before.advance index ticket answer outcome).tickets := by
    intro later member job
    obtain ⟨position, isLater⟩ := List.getElem?_of_mem member
    refine List.mem_of_getElem? (i := position) ?_
    rw [State.advance, List.getElem?_set_ne]
    · exact isLater
    · rintro rfl
      exact other (Option.some.inj (found.symm.trans isLater) ▸ job)
  refine ⟨limited.single.dwindle dwindles, ?_, ?_, ?_⟩
  · intro later member job counts
    rw [counted, located]
    rcases mem_advance found member with rfl | ⟨position, -, isLater⟩
    · exact absurd job other
    · exact limited.budget later (List.mem_of_getElem? isLater) job counts
  · intro idle
    rw [counted, located]
    exact limited.rest fun later member job => idle later (kept later member job) job
  · intro unused
    rw [counted]
    exact limited.unused fun later member job => unused later (kept later member job) job

/-- A maintenance statement about the row of a job without debts. -/
theorem Limited.act_fresh (limited : Limited fleet id before)
    (found : before.tickets[index]? = some ticket) (active : ticket.stage.active = true)
    (fresh : streak id before.log = 0)
    (idle : ∀ other ∈ before.tickets, other.job = id → other.stage.active = false) :
    Limited fleet id (before.advance index ticket answer outcome) := by
  have other : ticket.job ≠ id := by
    intro own
    have settled := idle ticket (List.mem_of_getElem? found) own
    exact Bool.false_ne_true (settled.symm.trans active)
  have counted : streak id (before.advance index ticket answer outcome).log = 0 :=
    (streak_other other _ _).trans fresh
  have dwindles : Dwindles Stage.active before.tickets
      (before.advance index ticket answer outcome).tickets :=
    dwindles_advance found fun _ => active
  refine ⟨limited.single.dwindle dwindles, ?_, ?_, fun _ => counted⟩
  · intro later member job counts
    have settled := dwindles.none_counts idle later member job
    exact absurd (settled.symm.trans counts) Bool.false_ne_true
  · intro _
    rw [counted]
    exact rested_zero

/-- A fair answer keeps every job within its limit. -/
theorem Limited.act {after : State} (limited : Limited fleet id before)
    (fair : Fair fleet id before (.act index answer))
    (moved : step fleet before (.act index answer) = some after) : Limited fleet id after := by
  obtain ⟨ticket, outcome, found, -, answered, rfl⟩ := step_act moved
  have active := active_of_answer answered
  by_cases touched : before.touches fleet id (.act index answer) = true
  · obtain ⟨-, fresh, idle⟩ := fair.1 touched
    exact limited.act_fresh found active fresh idle
  · have quiet : ∀ row ∈ before.table.find id,
        ticket.maintains fleet before.now answer row = false := by
      intro row present
      rw [Bool.eq_false_iff]
      intro maintains
      refine touched ?_
      simp only [State.touches, found, Option.any_some, Option.mem_def.mp present, maintains]
    by_cases own : ticket.job = id
    · refine limited.act_own found own answered quiet ?_
      rintro choice rfl
      exact fair.2 ticket found own
    · refine limited.act_other found own ?_ active
      rw [Statement.find_apply]
      cases present : before.table.find id with
      | none => rfl
      | some row =>
          exact Ticket.onRow_of_other answered
            (fun same => own (same.symm.trans (JobTable.mem_of_find present).2))
            (quiet row present)

/-- A tick enqueues a released job whose failures have been counted. -/
theorem Limited.enqueue {process : Nat} {ids : List String} {after : State}
    (limited : Limited fleet id before) (fair : Fair fleet id before (.enqueue process ids))
    (moved : step fleet before (.enqueue process ids) = some after) : Limited fleet id after := by
  obtain ⟨distinct, present, rfl⟩ := step_enqueue moved
  have idle : id ∈ ids → ∀ ticket ∈ before.tickets, ticket.job = id →
      ticket.stage.active = false := by
    intro listed ticket member job
    obtain ⟨row, found, ready⟩ := present id listed
    simp only [enqueueable, due, Bool.and_eq_true, Bool.not_eq_true'] at ready
    have released : row.queued = false := ready.1.1.1.1
    rw [Bool.eq_false_iff]
    intro active
    have queued := (limited.budget ticket member job active).queued active
      (fair.2 listed ticket member job) row found
    exact Bool.false_ne_true (released.symm.trans queued)
  have unlisted : id ∉ ids → (before.table.write (fun row => row.id ∈ ids)
      { queued := some true, lastRunAt := some before.now }).find id = before.table.find id := by
    intro unlisted
    rw [JobTable.find_write]
    refine (Option.map_congr fun row found => ?_).trans Option.map_id'
    rw [(JobTable.mem_of_find found).2,
      if_neg fun selected => unlisted (of_decide_eq_true selected)]
  have kept : ∀ ticket ∈ before.tickets, ticket ∈ before.tickets ++ before.enqueued process ids :=
    fun ticket member => List.mem_append_left _ member
  refine ⟨limited.single.enqueue distinct present idle, ?_, ?_, ?_⟩
  · intro ticket member job active
    by_cases listed : id ∈ ids
    · rcases List.mem_append.mp member with old | new
      · exact absurd ((idle listed ticket old job).symm.trans active) Bool.false_ne_true
      · rw [(State.mem_enqueued new).2.2.1]
        obtain ⟨row, found, ready⟩ := present id listed
        simp only [enqueueable, due, Bool.and_eq_true, Bool.not_eq_true'] at ready
        obtain ⟨bounded, counted⟩ := (limited.rest (idle listed)).2 row found ready.1.1.1.1
        refine ⟨bounded, fun later located => ?_⟩
        rw [JobTable.find_write, Option.mem_def.mp found, Option.map_some] at located
        obtain rfl := Option.some.inj located
        rw [(JobTable.mem_of_find found).2, if_pos (decide_eq_true listed)]
        exact ⟨rfl, counted⟩
    · rcases List.mem_append.mp member with old | new
      · rw [unlisted listed]
        exact limited.budget ticket old job active
      · exact absurd (job ▸ (State.mem_enqueued new).2.1) listed
  · intro settled
    by_cases listed : id ∈ ids
    · obtain ⟨row, found, -⟩ := present id listed
      have made : (⟨process, id, row.name, row.data, .waiting⟩ : Ticket) ∈
          before.enqueued process ids :=
        List.mem_filterMap.mpr ⟨id, listed, by rw [Option.mem_def.mp found]; rfl⟩
      have waiting := settled _ (List.mem_append_right _ made) rfl
      cases waiting
    · rw [unlisted listed]
      exact limited.rest fun ticket member => settled ticket (kept ticket member)
  · exact fun unused => limited.unused fun ticket member => unused ticket (kept ticket member)

theorem Limited.crash (limited : Limited fleet id before) (process : Nat) :
    Limited fleet id { before with tickets := before.tickets.map (State.crashed process) } := by
  have dwindles := dwindles_crash Stage.active rfl before.tickets process
  refine ⟨limited.single.dwindle dwindles, ?_, fun _ => limited.rested, ?_⟩
  · intro later member job active
    obtain ⟨ticket, old, rfl⟩ := List.mem_map.mp member
    rcases crashed_cases process ticket with same | ⟨-, settled⟩
    · rw [same] at job active ⊢
      exact limited.budget ticket old job active
    · rw [settled] at active
      cases active
  · intro unused
    refine limited.unused fun ticket member => ?_
    have other := unused _ (List.mem_map_of_mem member)
    rcases crashed_cases process ticket with same | ⟨-, settled⟩
    · rwa [same] at other
    · rwa [settled] at other

theorem Limited.create {created : String} {after : State} (limited : Limited fleet id before)
    (moved : step fleet before (.create created) = some after) : Limited fleet id after := by
  obtain ⟨fresh, unused, rfl⟩ := step_create moved
  have located := JobTable.find_insert (createdJob before.now created) fresh id
  by_cases same : id = created
  · subst same
    have zero := limited.unused unused
    refine ⟨limited.single, fun ticket member job => absurd job (unused ticket member), ?_,
      limited.unused⟩
    intro _
    change Rested _ (streak id before.log) _
    rw [zero]
    exact rested_zero
  · replace located := located.trans (if_neg same)
    refine ⟨limited.single, ?_, ?_, limited.unused⟩
    · intro ticket member job active
      change Budget _ _ ((before.table.insert _).find id) _
      rw [located]
      exact limited.budget ticket member job active
    · intro idle
      change Rested _ _ ((before.table.insert _).find id)
      rw [located]
      exact limited.rest idle

/-- Every fair step keeps every job within its limit. -/
theorem Limited.step {event : Event} {after : State} (limited : Limited fleet id before)
    (fair : Fair fleet id before event) (moved : step fleet before event = some after) :
    Limited fleet id after := by
  have unchanged : ∀ state : State, state.tickets = before.tickets → state.log = before.log →
      state.table = before.table → Limited fleet id state := by
    rintro ⟨now, table, tickets, creating, log⟩ rfl rfl rfl
    exact ⟨limited.single, limited.budget, limited.rest, limited.unused⟩
  cases event with
  | elapse duration =>
      obtain rfl := Option.some.inj moved
      exact unchanged _ rfl rfl rfl
  | enqueue process ids => exact limited.enqueue fair moved
  | act index answer => exact limited.act fair moved
  | crash process =>
      obtain rfl := Option.some.inj moved
      exact limited.crash process
  | findFirst =>
      obtain ⟨creating, rfl⟩ := step_findFirst moved
      exact unchanged _ rfl rfl rfl
  | create created => exact limited.create moved
  | abandon =>
      obtain ⟨creating, rfl⟩ := step_abandon moved
      exact unchanged _ rfl rfl rfl

end Steps

/-- A step that releases a row whose failures have reached the limit follows a success. -/
def ReleasesAfterSuccess (fleet : Fleet) (id : String) (before after : State) : Prop :=
  ∀ row ∈ before.table.find id, row.queued = true →
    fleet.settings.maxRestartsOnFailure ≤ row.failures →
      ∀ later ∈ after.table.find id, later.queued = false → streak id after.log = 0

/-- Every fair step releases a row beyond the limit only after a success. -/
theorem Limited.releases {before after : State} {event : Event} (limited : Limited fleet id before)
    (fair : Fair fleet id before event) (moved : Fleet.step fleet before event = some after) :
    ReleasesAfterSuccess fleet id before after := by
  intro row present queued spent later located released
  have different : before.table.find id ≠ some later := by
    intro same
    obtain rfl := Option.some.inj (present.symm.trans same)
    exact Bool.false_ne_true (released.symm.trans queued)
  cases event with
  | elapse duration =>
      obtain rfl := Option.some.inj moved
      exact absurd located different
  | enqueue process ids =>
      obtain ⟨-, -, rfl⟩ := step_enqueue moved
      rw [JobTable.find_write, Option.mem_def.mp present] at located
      obtain rfl := Option.some.inj located
      dsimp only at released
      split at released
      · cases released
      · exact absurd (released.symm.trans queued) Bool.false_ne_true
  | act index answer =>
      obtain ⟨ticket, outcome, found, -, answered, rfl⟩ := step_act moved
      rw [find_advance, Option.mem_def.mp present] at located
      by_cases maintains : ticket.maintains fleet before.now answer row = true
      · have touched : before.touches fleet id (.act index answer) = true := by
          simp only [State.touches, found, Option.any_some, Option.mem_def.mp present, maintains]
        exact absurd spent (not_le.mpr ((fair.1 touched).1 row present))
      · have quiet := Bool.eq_false_iff.mpr maintains
        by_cases own : ticket.job = id
        · subst own
          have budget := limited.budget ticket (List.mem_of_getElem? found) rfl
            (active_of_answer answered)
          have zero := success_of_releases budget quiet answered present queued spent located
            released
          exact (streak_own _ _).trans zero
        · have kept := Ticket.onRow_of_other answered
            (fun same => own (same.symm.trans (JobTable.mem_of_find present).2)) quiet
          exact absurd (present.trans (kept.symm.trans located)) different
  | crash process =>
      obtain rfl := Option.some.inj moved
      exact absurd located different
  | findFirst =>
      obtain ⟨creating, rfl⟩ := step_findFirst moved
      exact absurd located different
  | create created =>
      obtain ⟨fresh, -, rfl⟩ := step_create moved
      rw [JobTable.find_insert (createdJob before.now created) fresh] at located
      split at located
      · rename_i same
        have absent := present.symm.trans ((congrArg before.table.find same).trans fresh)
        cases absent
      · exact absurd located different
  | abandon =>
      obtain ⟨creating, rfl⟩ := step_abandon moved
      exact absurd located different

/-- In every fair run a job is executed at most once more than the limit without a success, and no
step releases its row beyond the limit before it has succeeded. -/
theorem retries_limited {now : Int} {table : JobTable} {events : List Event} {final : State}
    (fair : (system fleet).Along (Fair fleet id) events (State.initial now table))
    (execution : (system fleet).run events (State.initial now table) = some final) :
    streak id final.log ≤ fleet.settings.maxRestartsOnFailure + 1 ∧
      ∀ event after, Fair fleet id final event → (system fleet).step final event = some after →
        ReleasesAfterSuccess fleet id final after := by
  have preserved : ∀ before event after, Limited fleet id before → Fair fleet id before event →
      (system fleet).step before event = some after → Limited fleet id after :=
    fun _ _ _ limited fair moved => limited.step fair moved
  have limited := System.invariant_run preserved (limited_initial now table) fair execution
  exact ⟨limited.rested.1, fun _ _ fair moved => limited.releases fair moved⟩

/-! ## A mail that fails for good -/

/-- Mails are safe and restarted once. -/
def mailSettings : Settings where
  jobsSafeToRestart := ["mail"]
  jobsRiskyToRestart := []
  jobsCustomRestart := []
  tasks := ["mail"]
  wrapped := ["mail"]
  maxRestartsOnFailure := 1

def mailFleet (package : Package) : Fleet where
  library := hourlyRules
  moment := universalTime
  package := package
  settings := mailSettings

def mailStart : State :=
  State.initial exactSecond ⟨[dueRow "1" "mail", dueRow "2" MAINTENANCE_JOB_NAME], by decide⟩

/-- A statement of a ticket is carried out, some times over. -/
def carriedOut (index count : Nat) : List Event := List.replicate count (.act index (.done 0))

/-- The mail is sent by a tick of a process, and fails. -/
def mailFails (process index statements : Nat) : List Event :=
  [.enqueue process ["1"], .elapse 1000] ++ calls index ++ .act index (.completed false) ::
    carriedOut index statements ++ [.elapse 1000]

/-- The mail has failed twice and is not tried again; seven minutes later a pass looks for safe
laggy jobs. -/
def mailSpent : Package → List Event
  | .prisma =>
      mailFails 0 0 3 ++ mailFails 0 1 2 ++ [.elapse 420000, .enqueue 1 ["2"]] ++ calls 2 ++
        carriedOut 2 4
  | .sequelize =>
      mailFails 0 0 1 ++ mailFails 0 1 1 ++ [.elapse 420000, .enqueue 1 ["2"]] ++ calls 2 ++
        carriedOut 2 3

/-- The pass restarts the mail, and it is sent a third time. -/
def mailRestarted : List Event :=
  .act 2 (.done 0) :: [.elapse 1000, .enqueue 2 ["1"]] ++ calls 3

/-- Whether the mail is queued, its failures and its executions since the last success. -/
def mailObserved (state : State) : Option (Bool × Nat × Nat) :=
  (state.table.find "1").map fun row => (row.queued, row.failures, streak "1" state.log)

theorem mailSpent_observed (package : Package) :
    ((system (mailFleet package)).run (mailSpent package) mailStart).bind mailObserved =
      some (true, 2, 2) := by
  cases package <;> decide +kernel

theorem mailReleased_observed (package : Package) :
    ((system (mailFleet package)).run (mailSpent package ++ [.act 2 (.done 0)]) mailStart).bind
      mailObserved = some (false, 2, 2) := by
  cases package <;> decide +kernel

theorem mailRestarted_observed (package : Package) :
    ((system (mailFleet package)).run (mailSpent package ++ mailRestarted) mailStart).bind
      mailObserved = some (true, 2, 3) := by
  cases package <;> decide +kernel

/-- In both packages a pass releases the mail although its failures have reached the limit, and the
mail is executed more often in a row than the limit allows. -/
theorem mail_beyond_limit : [Package.prisma, .sequelize].Forall fun package =>
    ∃ spent released final,
      (system (mailFleet package)).run (mailSpent package) mailStart = some spent ∧
      (system (mailFleet package)).step spent (.act 2 (.done 0)) = some released ∧
      ¬ ReleasesAfterSuccess (mailFleet package) "1" spent released ∧
      (system (mailFleet package)).run (mailSpent package ++ mailRestarted) mailStart = some final ∧
      ¬ streak "1" final.log ≤ mailSettings.maxRestartsOnFailure + 1 := by
  refine List.forall_iff_forall_mem.mpr fun package _ => ?_
  obtain ⟨spent, isSpent, spentRow⟩ := Option.bind_eq_some_iff.mp (mailSpent_observed package)
  obtain ⟨released, isReleased, releasedRow⟩ :=
    Option.bind_eq_some_iff.mp (mailReleased_observed package)
  obtain ⟨final, isFinal, finalRow⟩ := Option.bind_eq_some_iff.mp (mailRestarted_observed package)
  obtain ⟨row, found, observed⟩ := Option.map_eq_some_iff.mp spentRow
  obtain ⟨later, located, observedLater⟩ := Option.map_eq_some_iff.mp releasedRow
  obtain ⟨_, _, observedFinal⟩ := Option.map_eq_some_iff.mp finalRow
  simp only [Prod.mk.injEq] at observed observedLater observedFinal
  rw [System.run_append, isSpent, Option.bind_some, System.run_cons] at isReleased
  obtain ⟨next, moved, same⟩ := Option.bind_eq_some_iff.mp isReleased
  obtain rfl := Option.some.inj same
  have reached : mailSettings.maxRestartsOnFailure ≤ row.failures := by
    rw [observed.2.1]
    decide
  refine ⟨spent, next, final, isSpent, moved, fun releases => ?_, isFinal, ?_⟩
  · have zero := releases row found observed.1 reached later located observedLater.1
    rw [observedLater.2.2] at zero
    cases zero
  · rw [observedFinal.2.2]
    decide

/-- Until then, the mail stays within its limit. -/
theorem mailSpent_limited : ∃ final,
    (system (mailFleet .prisma)).run (mailSpent .prisma) mailStart = some final ∧
      streak "1" final.log ≤ mailSettings.maxRestartsOnFailure + 1 ∧
        ∀ event after, Fair (mailFleet .prisma) "1" final event →
          (system (mailFleet .prisma)).step final event = some after →
            ReleasesAfterSuccess (mailFleet .prisma) "1" final after := by
  obtain ⟨final, execution, -⟩ := Option.bind_eq_some_iff.mp (mailSpent_observed .prisma)
  exact ⟨final, execution, retries_limited (by decide +kernel) execution⟩

end Steveo.Scheduler.Fleet
