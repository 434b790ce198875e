import Steveo.Scheduler.Fleet

/-!
# Overlapping executions of a job

A row stays queued from the tick that enqueues it until its ticket puts it back, so that only one
ticket of a job is under way, unless a maintenance pass releases the row of a ticket that is still
waiting or executing.
-/

namespace Steveo.Scheduler.Fleet

variable {fleet : Fleet} {id : String}

/-- A ticket under way will still execute its task or put its row back. -/
def Stage.underway : Stage → Bool
  | .counting _ | .settled => false
  | _ => true

/-- The task of a ticket has been called and has not ended. -/
def Stage.inProgress : Stage → Bool
  | .executing _ | .maintaining _ _ => true
  | _ => false

/-- No two executions of the task of a job are in progress. -/
def NoOverlap (id : String) (state : State) : Prop :=
  ∀ (left right : Nat) (first second : Ticket), state.tickets[left]? = some first →
    state.tickets[right]? = some second → first.job = id → second.job = id →
    first.stage.inProgress = true → second.stage.inProgress = true → left = right

/-- Whether an event carries out a maintenance statement that changes the row of a job. -/
def State.touches (fleet : Fleet) (state : State) (id : String) : Event → Bool
  | .act index answer =>
      (state.tickets[index]?).any fun ticket =>
        (state.table.find id).any (ticket.maintains fleet state.now answer)
  | _ => false

/-- No maintenance pass changes the row of a job while a ticket of the job is under way. -/
def Undisturbed (fleet : Fleet) (id : String) (state : State) (event : Event) : Prop :=
  state.touches fleet id event = true →
    ∀ ticket ∈ state.tickets, ticket.job = id → ticket.stage.underway = false

instance (fleet : Fleet) (id : String) (state : State) (event : Event) :
    Decidable (Undisturbed fleet id state event) :=
  inferInstanceAs (Decidable (_ → _))

/-! ## Counting tickets -/

/-- At most one ticket of a job counts. -/
def Single (counts : Stage → Bool) (id : String) (tickets : List Ticket) : Prop :=
  ∀ (left right : Nat) (first second : Ticket), tickets[left]? = some first →
    tickets[right]? = some second → first.job = id → second.job = id →
    counts first.stage = true → counts second.stage = true → left = right

/-- Every ticket is for the same job as before, and counts only if it did before. -/
def Dwindles (counts : Stage → Bool) (before after : List Ticket) : Prop :=
  ∀ (index : Nat) (later : Ticket), after[index]? = some later →
    ∃ earlier, before[index]? = some earlier ∧ earlier.job = later.job ∧
      (counts later.stage = true → counts earlier.stage = true)

section Counting

variable {counts : Stage → Bool} {before after : List Ticket}

theorem Single.dwindle (single : Single counts id before)
    (dwindles : Dwindles counts before after) : Single counts id after := by
  intro left right first second isFirst isSecond firstJob secondJob firstCounts secondCounts
  obtain ⟨one, isOne, oneJob, oneCounts⟩ := dwindles left first isFirst
  obtain ⟨other, isOther, otherJob, otherCounts⟩ := dwindles right second isSecond
  exact single left right one other isOne isOther (oneJob.trans firstJob)
    (otherJob.trans secondJob) (oneCounts firstCounts) (otherCounts secondCounts)

/-- Where no ticket of a job counted before, none does afterwards. -/
theorem Dwindles.none_counts (dwindles : Dwindles counts before after)
    (idle : ∀ ticket ∈ before, ticket.job = id → counts ticket.stage = false) :
    ∀ ticket ∈ after, ticket.job = id → counts ticket.stage = false := by
  intro later member job
  obtain ⟨index, isLater⟩ := List.getElem?_of_mem member
  obtain ⟨earlier, isEarlier, same, counted⟩ := dwindles index later isLater
  rw [Bool.eq_false_iff]
  intro counts
  have idle := idle earlier (List.mem_of_getElem? isEarlier) (same.trans job)
  exact Bool.false_ne_true (idle.symm.trans (counted counts))

/-- An answered ticket counts only if it did before. -/
theorem dwindles_advance {state : State} {index : Nat} {ticket : Ticket} {answer : Answer}
    {outcome : Outcome} (found : state.tickets[index]? = some ticket)
    (counted : counts outcome.stage = true → counts ticket.stage = true) :
    Dwindles counts state.tickets (state.advance index ticket answer outcome).tickets := by
  intro other later isLater
  rw [State.advance, List.getElem?_set] at isLater
  split at isLater
  · rename_i same
    subst same
    split at isLater
    · obtain rfl := Option.some.inj isLater
      exact ⟨ticket, found, rfl, counted⟩
    · cases isLater
  · exact ⟨later, isLater, rfl, fun counts => counts⟩

/-- A crash settles tickets. -/
theorem dwindles_crash (counts : Stage → Bool) (settled : counts .settled = false)
    (tickets : List Ticket) (process : Nat) :
    Dwindles counts tickets (tickets.map (State.crashed process)) := by
  intro index later isLater
  rw [List.getElem?_map] at isLater
  obtain ⟨earlier, isEarlier, rfl⟩ := Option.map_eq_some_iff.mp isLater
  rcases crashed_cases process earlier with same | ⟨-, crashed⟩
  · rw [same]
    exact ⟨earlier, isEarlier, rfl, fun counts => counts⟩
  · rw [crashed]
    refine ⟨earlier, isEarlier, rfl, fun counts => ?_⟩
    rw [settled] at counts
    cases counts

/-- A tick adds one ticket to a job of which none counted. -/
theorem Single.enqueue {state : State} {process : Nat} {ids : List String} (distinct : ids.Nodup)
    (present : state.Enqueueable fleet ids) (single : Single counts id state.tickets)
    (idle : id ∈ ids → ∀ ticket ∈ state.tickets, ticket.job = id → counts ticket.stage = false) :
    Single counts id (state.tickets ++ state.enqueued process ids) := by
  have jobs := State.enqueued_jobs process present
  have listed : ∀ (index : Nat) (ticket : Ticket),
      (state.enqueued process ids)[index]? = some ticket → ticket.job = id →
        ids[index]? = some id := by
    rintro index ticket found rfl
    have mapped := congrArg (fun jobs => jobs[index]?) jobs
    rw [List.getElem?_map, found] at mapped
    exact mapped.symm
  have old : ∀ (index : Nat) (ticket : Ticket), state.tickets[index]? = some ticket →
      ticket.job = id → counts ticket.stage = true → id ∉ ids := by
    intro index ticket found job counted member
    have idle := idle member ticket (List.mem_of_getElem? found) job
    exact Bool.false_ne_true (idle.symm.trans counted)
  intro left right first second isFirst isSecond firstJob secondJob firstCounts secondCounts
  rw [List.getElem?_append] at isFirst isSecond
  split at isFirst
  · split at isSecond
    · exact single left right first second isFirst isSecond firstJob secondJob firstCounts
        secondCounts
    · have added := List.mem_of_getElem? (listed _ second isSecond secondJob)
      exact absurd added (old left first isFirst firstJob firstCounts)
  · split at isSecond
    · have added := List.mem_of_getElem? (listed _ first isFirst firstJob)
      exact absurd added (old right second isSecond secondJob secondCounts)
    · have isLeft := listed _ first isFirst firstJob
      have isRight := listed _ second isSecond secondJob
      have bound := (List.getElem?_eq_some_iff.mp isLeft).1
      have same := (List.getElem?_inj bound distinct).mp (isLeft.trans isRight.symm)
      omega

end Counting

/-! ## Tickets and the row of their job -/

section Answers

variable {now : Int} {table : JobTable} {ticket : Ticket} {answer : Answer} {outcome : Outcome}

/-- A ticket does not get under way again. -/
theorem underway_of_answer (answered : ticket.answer fleet now table answer = some outcome)
    (underway : outcome.stage.underway = true) : ticket.stage.underway = true := by
  cases Ticket.reaction answered with
  | thrown | uncounted | counted => cases underway
  | unfinished stage =>
      rcases stage with stage | stage | ⟨-, nextRunAt, stage⟩ <;> rw [stage] <;> rfl
  | _ =>
      rw [‹ticket.stage = _›]
      rfl

/-- Accepting a job does not release its row. -/
theorem columns_accepted (loaded : JobRow) :
    (fleet.columns { values := loaded } { acceptedAt := some now }).queued = none := by
  rw [columns]
  split <;> rfl

/-- The ways in which a ticket releases the row of its job: it has finished, or a failure is counted
and the job is tried again, in the Prisma scheduler before the failure is counted once more. -/
inductive Releases (fleet : Fleet) (now : Int) (ticket : Ticket) : Outcome → Prop
  | finished {loaded : JobRow} {nextRunAt : Option Int}
      (stage : ticket.stage = .storing loaded nextRunAt) (statement : Statement) :
      Releases fleet now ticket (Ticket.settle true statement)
  | failed {loaded : JobInstance} (stage : ticket.stage = .failing loaded) (choice : Nat) :
      Releases fleet now ticket (Ticket.settle false
        (.write (fleet.addresses ticket.job) (fleet.columns loaded
          (if fleet.retries loaded.values then retried now choice loaded.values
            else Fleet.failed now loaded.values))))
  | requeued {found : JobRow} (stage : ticket.stage = .requeueing found) (statement : Statement) :
      Releases fleet now ticket { stage := .counting found, statement := statement }

/-- Apart from a maintenance pass, a row is released in one of these ways. -/
theorem releases_of_answer (answered : ticket.answer fleet now table answer = some outcome)
    {row after : JobRow} (quiet : ticket.maintains fleet now answer row = false)
    (becomes : outcome.statement.onRow row = some after) (queued : row.queued = true)
    (released : after.queued = false) : Releases fleet now ticket outcome := by
  have changed : outcome.statement.onRow row ≠ some row := by
    intro same
    obtain rfl := Option.some.inj (becomes.symm.trans same)
    exact Bool.false_ne_true (released.symm.trans queued)
  have assigns : ∀ {condition : JobRow → Bool} {update : RowUpdate}, update.queued = none →
      (Statement.write condition update).onRow row ≠ some after := by
    intro condition update unassigned assigned
    obtain rfl := Option.some.inj assigned
    split at released
    · rw [RowUpdate.apply_queued, unassigned, Option.getD_none, queued] at released
      cases released
    · rw [queued] at released
      cases released
  have deletes : ∀ {condition : JobRow → Bool},
      (Statement.delete condition).onRow row = some after →
        (Statement.delete condition).onRow row = some row := by
    intro condition kept
    simp only [Statement.onRow] at kept ⊢
    split at kept
    · cases kept
    · rename_i left
      exact if_neg left
  cases Ticket.reaction answered with
  | launched stage =>
      rw [Ticket.launch_statement] at changed
      exact absurd rfl changed
  | consumed stage =>
      rw [Ticket.consume_statement] at changed
      exact absurd rfl changed
  | accepted stage => exact absurd becomes (assigns (columns_accepted _))
  | counted stage => exact absurd becomes (assigns rfl)
  | deleted | destroyed => exact absurd (deletes becomes) changed
  | continued stage continues =>
      simp only [Ticket.maintains, stage] at quiet
      exact absurd (Statement.onRow_of_not_selects quiet) changed
  | stored stage => exact .finished stage _
  | saved stage => exact .failed stage _
  | requeued stage => exact .requeued stage _
  | _ => exact absurd rfl changed

/-- A ticket that releases the row of its job is under way, and is then done with it. -/
theorem Releases.underway (releases : Releases fleet now ticket outcome) :
    ticket.stage.underway = true ∧ outcome.stage.underway = false := by
  cases releases with
  | finished stage statement => exact ⟨by rw [stage]; rfl, rfl⟩
  | failed stage choice => exact ⟨by rw [stage]; rfl, rfl⟩
  | requeued stage statement => exact ⟨by rw [stage]; rfl, rfl⟩

end Answers

/-- At most one ticket of a job is under way, and none where the row is not queued. -/
structure Possession (id : String) (state : State) : Prop where
  single : Single Stage.underway id state.tickets
  held : ∀ row ∈ state.table.find id, row.queued = false →
    ∀ ticket ∈ state.tickets, ticket.job = id → ticket.stage.underway = false

theorem possession_initial (now : Int) (table : JobTable) :
    Possession id (State.initial now table) where
  single _ _ _ _ isFirst := by cases isFirst
  held _ _ _ _ member := by cases member

/-- An answer keeps the possession of a job unless it disturbs it. -/
theorem Possession.act {before after : State} {index : Nat} {answer : Answer}
    (possession : Possession id before)
    (undisturbed : Undisturbed fleet id before (.act index answer))
    (moved : step fleet before (.act index answer) = some after) : Possession id after := by
  obtain ⟨ticket, outcome, found, -, answered, rfl⟩ := step_act moved
  have dwindles : Dwindles Stage.underway before.tickets
      (before.advance index ticket answer outcome).tickets :=
    dwindles_advance found (underway_of_answer answered)
  refine ⟨possession.single.dwindle dwindles, ?_⟩
  intro after located released
  rw [find_advance] at located
  obtain ⟨row, present, becomes⟩ := Option.bind_eq_some_iff.mp located
  by_cases queued : row.queued = true
  · by_cases maintained : ticket.maintains fleet before.now answer row = true
    · -- a pass releases the row, and by the guard no ticket of the job is under way
      refine dwindles.none_counts (undisturbed ?_)
      simp only [State.touches, found, present, Option.any_some, maintained]
    · obtain ⟨active, settles⟩ := (releases_of_answer answered
        (Bool.eq_false_iff.mpr maintained) becomes queued released).underway
      have own : ticket.job = id := by
        by_contra other
        have kept := Ticket.onRow_of_other answered
          (fun same => other (same.symm.trans (JobTable.mem_of_find present).2))
          (Bool.eq_false_iff.mpr maintained)
        obtain rfl := Option.some.inj (becomes.symm.trans kept)
        exact Bool.false_ne_true (released.symm.trans queued)
      intro later member job
      obtain ⟨position, isLater⟩ := List.getElem?_of_mem member
      rw [Bool.eq_false_iff]
      intro underway
      obtain ⟨earlier, isEarlier, same, counted⟩ := dwindles position later isLater
      by_cases here : position = index
      · subst here
        have bound := (List.getElem?_eq_some_iff.mp isEarlier).1
        rw [State.advance, List.getElem?_set_self bound] at isLater
        obtain rfl := Option.some.inj isLater
        exact Bool.false_ne_true (settles.symm.trans underway)
      · exact here (possession.single position index earlier ticket isEarlier found
          (same.trans job) own (counted underway) active)
  · exact dwindles.none_counts (possession.held row present (Bool.eq_false_iff.mpr queued))

/-- Every step that disturbs no ticket under way keeps the possession of a job. -/
theorem Possession.step {before after : State} {event : Event}
    (possession : Possession id before) (undisturbed : Undisturbed fleet id before event)
    (moved : step fleet before event = some after) : Possession id after := by
  cases event with
  | elapse duration =>
      obtain rfl := Option.some.inj moved
      exact ⟨possession.single, possession.held⟩
  | enqueue process ids =>
      obtain ⟨distinct, present, rfl⟩ := step_enqueue moved
      have idle : id ∈ ids → ∀ ticket ∈ before.tickets, ticket.job = id →
          ticket.stage.underway = false := by
        intro member
        obtain ⟨row, found, ready⟩ := present id member
        refine possession.held row found ?_
        simp only [enqueueable, due, Bool.and_eq_true, Bool.not_eq_true'] at ready
        exact ready.1.1.1.1
      refine ⟨possession.single.enqueue distinct present idle, ?_⟩
      intro after located released ticket member job
      rw [JobTable.find_write] at located
      obtain ⟨row, found, rfl⟩ := Option.map_eq_some_iff.mp located
      by_cases listed : id ∈ ids
      · rw [(JobTable.mem_of_find found).2, if_pos (decide_eq_true listed)] at released
        cases released
      · rw [(JobTable.mem_of_find found).2,
          if_neg (fun selected => listed (of_decide_eq_true selected))] at released
        rcases List.mem_append.mp member with old | new
        · exact possession.held row found released ticket old job
        · exact absurd (job ▸ (State.mem_enqueued new).2.1) listed
  | act index answer => exact possession.act undisturbed moved
  | crash process =>
      obtain rfl := Option.some.inj moved
      have dwindles := dwindles_crash Stage.underway rfl before.tickets process
      exact ⟨possession.single.dwindle dwindles, fun row found released =>
        dwindles.none_counts (possession.held row found released)⟩
  | findFirst =>
      obtain ⟨creating, rfl⟩ := step_findFirst moved
      exact ⟨possession.single, possession.held⟩
  | create created =>
      obtain ⟨fresh, unused, rfl⟩ := step_create moved
      refine ⟨possession.single, ?_⟩
      intro row found released ticket member job
      rw [JobTable.find_insert (createdJob before.now created) fresh] at found
      split at found
      · rename_i same
        exact absurd (job.trans same) (unused ticket member)
      · exact possession.held row found released ticket member job
  | abandon =>
      obtain ⟨creating, rfl⟩ := step_abandon moved
      exact ⟨possession.single, possession.held⟩

/-- Whatever the processes do, two executions of a job are never in progress at the same time, as
long as no maintenance pass changes its row while one of its tickets is under way. -/
theorem noOverlap_of_undisturbed {now : Int} {table : JobTable} {events : List Event}
    {final : State}
    (undisturbed : (system fleet).Along (Undisturbed fleet id) events (State.initial now table))
    (execution : (system fleet).run events (State.initial now table) = some final) :
    NoOverlap id final := by
  have preserved : ∀ before event after, Possession id before →
      Undisturbed fleet id before event → (system fleet).step before event = some after →
      Possession id after := fun _ _ _ possession undisturbed moved =>
    possession.step undisturbed moved
  have possession := System.invariant_run preserved (possession_initial now table) undisturbed
    execution
  have counts : ∀ ticket : Ticket, ticket.stage.inProgress = true →
      ticket.stage.underway = true := by
    intro ticket active
    cases stage : ticket.stage <;> first | rfl | (rw [stage] at active; cases active)
  intro left right first second isFirst isSecond firstJob secondJob firstActive secondActive
  exact possession.single left right first second isFirst isSecond firstJob secondJob
    (counts first firstActive) (counts second secondActive)

/-! ## A payment that waits for ten minutes -/

/-- Payments are risky; the slow job is not wrapped by the timestamp helper. -/
def paymentSettings : Settings where
  jobsSafeToRestart := []
  jobsRiskyToRestart := ["payment"]
  jobsCustomRestart := []
  tasks := ["slow", "payment"]
  wrapped := ["payment"]
  enqueueLimit := 2

def paymentFleet (package : Package) : Fleet where
  library := hourlyRules
  moment := universalTime
  package := package
  settings := paymentSettings

/-- Some rows that are due. -/
def dueRow (id name : String) : JobRow where
  toJob := { hourlyJob with id := id, queued := false }
  name := name
  lastRunAt := none
  acceptedAt := none
  deletedAt := none

def paymentTable : JobTable :=
  ⟨[dueRow "1" "slow", dueRow "2" "payment", dueRow "3" MAINTENANCE_JOB_NAME], by decide⟩

/-- Ten minutes before the maintenance pass. -/
def paymentStart : State := State.initial (exactSecond + 500 - minutes 10) paymentTable

/-- One process enqueues the slow job and the payment and calls the slow task. -/
def paymentEnqueued : List Event := [.enqueue 0 ["1", "2"], .act 0 .begun]

/-- A ticket is answered until its task is called. -/
def calls (index : Nat) : List Event :=
  [.act index .begun, .act index (.done 0), .act index (.done 0)]

/-- A pass resets the payment, which has waited for ten minutes; an hour later another process
executes it, and then the first one comes to it. -/
def paymentRun : List Event :=
  paymentEnqueued ++ [.elapse 600000, .enqueue 1 ["3"]] ++ calls 2 ++
    [.act 2 (.done 0), .act 2 (.done 0), .act 2 (.done 0), .act 2 (.done 0)] ++
    [.elapse 3600000, .enqueue 2 ["2"]] ++ calls 3 ++ [.act 0 (.completed true)] ++ calls 1

theorem payment_in_progress :
    ((system (paymentFleet .sequelize)).run paymentRun paymentStart).map (fun final =>
      [1, 3].map fun index =>
        (final.tickets[index]?).map fun ticket => (ticket.job, ticket.stage.inProgress)) =
      some [some ("2", true), some ("2", true)] := by
  decide +kernel

/-- In the Sequelize scheduler a risky job that waits behind a slow one is reset and executed twice
at the same time. -/
theorem payment_overlaps :
    "payment" ∈ paymentSettings.jobsRiskyToRestart ∧
    "payment" ∉ paymentSettings.jobsSafeToRestart ∧
    "payment" ∉ paymentSettings.jobsCustomRestart.map Prod.fst ∧
    ∃ final, (system (paymentFleet .sequelize)).run paymentRun paymentStart = some final ∧
      ¬ NoOverlap "2" final := by
  refine ⟨by decide, by decide, by decide, ?_⟩
  obtain ⟨final, execution, observed⟩ := Option.map_eq_some_iff.mp payment_in_progress
  refine ⟨final, execution, fun noOverlap => ?_⟩
  simp only [List.map_cons, List.map_nil, List.cons.injEq, Option.map_eq_some_iff, Prod.mk.injEq]
    at observed
  obtain ⟨⟨first, isFirst, firstJob, firstActive⟩, ⟨second, isSecond, secondJob, secondActive⟩,
    -⟩ := observed
  have same := noOverlap 1 3 first second isFirst isSecond firstJob secondJob firstActive
    secondActive
  exact absurd same (by decide)

/-- Before the pass, nothing disturbs the payment. -/
theorem payment_no_overlap : ∃ final, (system (paymentFleet .sequelize)).run
    (paymentEnqueued ++ [.act 0 (.completed true)] ++ calls 1) paymentStart = some final ∧
      NoOverlap "2" final := by
  obtain ⟨final, execution⟩ := Option.isSome_iff_exists.mp (show ((system
    (paymentFleet .sequelize)).run (paymentEnqueued ++ [.act 0 (.completed true)] ++ calls 1)
      paymentStart).isSome = true by decide +kernel)
  exact ⟨final, execution, noOverlap_of_undisturbed (by decide +kernel) execution⟩

end Steveo.Scheduler.Fleet
