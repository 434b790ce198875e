import Steveo.Scheduler.Overlap

/-!
# Namespaces

A scheduler with a namespace enqueues the rows of its namespace only, and its timestamp helper
addresses these rows only, but a maintenance pass selects rows of every namespace.  As long as no
pass finds a row of another namespace that it would change or report, or that ends it when it counts
the due jobs, such rows are neither changed nor do they matter.
-/

namespace Steveo.Scheduler.Fleet

variable {fleet : Fleet}

/-- Whether an event is part of a tick, of a task or of a maintenance pass; the others look for the
maintenance job when a process starts. -/
def Event.operates : Event → Bool
  | .findFirst | .create _ | .abandon => false
  | _ => true

/-- Whether a row matters to a pass that selects it: the pass will change or report the row, or it
throws because of the row although it would not throw because of a row of its namespace. -/
def Progress.concerns (fleet : Fleet) (now : Int) (table : JobTable) (row : JobRow) :
    Progress → Bool
  | .pending =>
      decide (fleet.package = .prisma) && isPending fleet.settings now row &&
        !table.rows.any fun other => fleet.owns other && isPending fleet.settings now other
  | .safeBlocked => fleet.package.safeBlocked fleet.settings now row
  | .riskyBlocked =>
      fleet.package.riskyBlocked fleet.settings now row &&
        (fleet.package.nextReset fleet.library fleet.moment now row).isSome
  | .safeLaggy => fleet.package.safeLaggy fleet.settings now row
  | .otherLaggy =>
      fleet.package.otherLaggy fleet.settings now row &&
        (notifiesLaggy fleet.settings row || fleet.package.resetsLaggy fleet.settings now row &&
          (fleet.package.nextReset fleet.library fleet.moment now row).isSome)
  | _ => false

/-- Whether a pass selects a row of another namespace that matters to it. -/
def State.strays (fleet : Fleet) (state : State) : Event → Bool
  | .act index (.done _) =>
      (state.tickets[index]?).any fun ticket =>
        match ticket.stage with
        | .maintaining _ progress =>
            state.table.rows.any fun row =>
              !fleet.owns row && progress.concerns fleet state.now state.table row
        | _ => false
  | _ => false

/-- An event of a tick, of a task or of a pass that keeps to its namespace. -/
def Separate (fleet : Fleet) (state : State) (event : Event) : Prop :=
  event.operates = true ∧ state.strays fleet event = false

instance (fleet : Fleet) (state : State) (event : Event) : Decidable (Separate fleet state event) :=
  inferInstanceAs (Decidable (_ ∧ _))

/-! ## The rows of a namespace -/

/-- The rows of the namespace. -/
def own (fleet : Fleet) (table : JobTable) : JobTable := table.delete fun row => !fleet.owns row

/-- Everything is reported but how many jobs are due. -/
def Deed.reports : Deed → Bool
  | .emitted (.pending _) => false
  | _ => true

/-- What a scheduler does about its namespace. -/
def Outcome.own (outcome : Outcome) : Outcome :=
  { outcome with deeds := outcome.deeds.filter Deed.reports }

/-- A state as far as it is about the namespace. -/
def State.own (fleet : Fleet) (state : State) : State :=
  { state with
    table := Fleet.own fleet state.table
    log := state.log.filter fun entry => entry.deed.reports }

section Rows

variable {table : JobTable} {statement : Statement}

theorem own_rows (table : JobTable) : (fleet.own table).rows = table.rows.filter fleet.owns := by
  simp [own, JobTable.delete]

/-- An assignment leaves a row in its namespace. -/
theorem owns_write (condition : JobRow → Bool) (update : RowUpdate) :
    (fleet.owns ∘ fun row => if condition row then update.apply row else row) = fleet.owns := by
  funext row
  simp only [Function.comp_apply]
  split <;> rfl

/-- A statement does to the rows of the namespace what it does without the other ones. -/
theorem own_apply (statement : Statement) (table : JobTable) :
    fleet.own (statement.apply (fleet.own table)) = fleet.own (statement.apply table) := by
  refine JobTable.eq_of_rows ?_
  rw [own_rows, own_rows]
  cases statement with
  | read =>
      change (fleet.own table).rows.filter fleet.owns = table.rows.filter fleet.owns
      simp only [own_rows, List.filter_filter, Bool.and_self]
  | write condition update =>
      simp only [Statement.apply, JobTable.write, own_rows, List.filter_map, owns_write,
        List.filter_filter, Bool.and_self]
  | delete condition =>
      simp only [Statement.apply, JobTable.delete, own_rows, List.filter_filter]
      refine List.filter_congr fun row _ => ?_
      rw [Bool.and_left_comm, Bool.and_self, Bool.and_comm]

theorem own_own (table : JobTable) : fleet.own (fleet.own table) = fleet.own table :=
  own_apply .read table

/-- A statement that selects rows of the namespace only leaves all other ones as they are. -/
theorem foreign_apply
    (confined : ∀ row ∈ table.rows, statement.selects row = true → fleet.owns row = true) :
    (statement.apply table).rows.filter (fun row => !fleet.owns row) =
      table.rows.filter fun row => !fleet.owns row := by
  cases statement with
  | read => rfl
  | write condition update =>
      have outside : ((fun row => !fleet.owns row) ∘ fun row : JobRow =>
          if condition row then update.apply row else row) = fun row => !fleet.owns row := by
        funext row
        exact congrArg not (congrFun (owns_write condition update) row)
      change (table.rows.map _).filter _ = _
      rw [List.filter_map, outside]
      refine (List.map_congr_left fun row member => ?_).trans (List.map_id _)
      obtain ⟨present, foreign⟩ := List.mem_filter.mp member
      refine if_neg fun selected => ?_
      rw [confined row present selected] at foreign
      cases foreign
  | delete condition =>
      change (table.rows.filter _).filter _ = _
      rw [List.filter_filter]
      refine List.filter_congr fun row present => ?_
      cases selected : condition row with
      | false => exact Bool.and_true _
      | true => rw [confined row present selected]; rfl

/-- Selecting rows of the namespace. -/
theorem select_own (condition : JobRow → Bool) :
    (fleet.own table).select condition = (table.select condition).filter fleet.owns := by
  simp only [JobTable.select, own_rows, List.filter_filter, Bool.and_comm]

/-- Looking up the row of a job finds the same row without the other namespaces. -/
theorem lookUp_own (prisma : fleet.package = .prisma) (table : JobTable) (id : String) :
    fleet.lookUp (fleet.own table) id = fleet.lookUp table id := by
  rw [lookUp, lookUp, own, JobTable.find_delete, Option.filter_filter]
  refine congrArg (fun condition => (table.find id).filter condition) (funext fun row => ?_)
  simp only [addresses, prisma, Bool.not_not]
  cases fleet.owns row <;> simp

theorem update_own (prisma : fleet.package = .prisma) (table : JobTable) (id : String)
    (loaded : JobInstance) (change : RowUpdate) :
    fleet.update (fleet.own table) id loaded change = fleet.update table id loaded change := by
  rw [Fleet.update, Fleet.update, lookUp_own prisma]

end Rows

/-! ## What a scheduler does about its namespace -/

section Answers

variable {now : Int} {table : JobTable} {ticket : Ticket} {answer : Answer}

/-- Where a pass continues, as far as it is about the namespace. -/
def ownNext (next : Option Progress × List Notice) : Option Progress × List Notice :=
  (next.1, next.2.filter fun notice => (Deed.emitted notice).reports)

theorem own_proceed (loaded : Option JobRow) (statement : Statement)
    (next : Option Progress × List Notice) :
    (Ticket.proceed fleet now loaded statement next).own =
      Ticket.proceed fleet now loaded statement (ownNext next) := by
  simp only [Outcome.own, Ticket.proceed, ownNext, List.filter_map]
  rfl

/-- Rows that are not reset do not matter. -/
theorem resets_filter {jobs : List JobRow}
    (reset : ∀ job ∈ jobs,
      (fleet.package.nextReset fleet.library fleet.moment now job).isSome = true →
        fleet.owns job = true) :
    fleet.resets now (jobs.filter fleet.owns) = fleet.resets now jobs := by
  rw [resets, resets, List.filterMap_filter]
  refine List.filterMap_congr fun job member => ?_
  cases owned : fleet.owns job with
  | true => rfl
  | false =>
      cases next : fleet.package.nextReset fleet.library fleet.moment now job with
      | none => rfl
      | some nextRunAt =>
          rw [reset job member (by rw [next]; rfl)] at owned
          cases owned

/-- A selection that concerns no other namespace finds the same rows without them. -/
theorem select_own_of_confined {condition : JobRow → Bool}
    (confined : ∀ row ∈ table.rows, condition row = true → fleet.owns row = true) :
    (fleet.own table).select condition = table.select condition := by
  rw [select_own]
  refine List.filter_eq_self.mpr fun row selected => ?_
  obtain ⟨present, holds⟩ := JobTable.mem_select.mp selected
  exact confined row present holds

/-- A pass counts the due jobs of its namespace if no other namespace makes it throw. -/
theorem pendingJobs_own (prisma : fleet.package = .prisma)
    (confined : ∀ row ∈ table.rows,
      Progress.pending.concerns fleet now table row = true → fleet.owns row = true) :
    fleet.package.pendingJobs fleet.settings now (fleet.own table) =
      fleet.package.pendingJobs fleet.settings now table := by
  have mem_own {row : JobRow} : row ∈ (fleet.own table).rows ↔
      row ∈ table.rows ∧ fleet.owns row = true := by
    rw [own_rows, List.mem_filter]
  by_cases counts : fleet.package.Counts fleet.settings now table
  · have idle := counts prisma
    rw [pendingJobs_of_idle _ idle,
      pendingJobs_of_idle _ fun row present => idle row (mem_own.mp present).1]
  · have due : ∃ row ∈ table.rows, fleet.owns row = true ∧
        isPending fleet.settings now row = true := by
      by_contra none
      push Not at none
      refine counts fun _ row present => Bool.eq_false_iff.mpr fun due => ?_
      have unowned : table.rows.any (fun other => fleet.owns other &&
          isPending fleet.settings now other) = false := by
        simpa using none
      have owned := confined row present (by simp [Progress.concerns, prisma, due, unowned])
      exact none row present owned due
    obtain ⟨row, present, owned, due⟩ := due
    have throws : ¬ fleet.package.Counts fleet.settings now (fleet.own table) := fun idle =>
      Bool.false_ne_true ((idle prisma row (mem_own.mpr ⟨present, owned⟩)).symm.trans due)
    rw [pendingJobs_eq_none counts, pendingJobs_eq_none throws]

/-- A pass that concerns no other namespace continues as it does without them. -/
theorem next_own (prisma : fleet.package = .prisma) (choice : Nat) {progress : Progress}
    (confined : ∀ row ∈ table.rows,
      progress.concerns fleet now table row = true → fleet.owns row = true) :
    (progress.next fleet now (fleet.own table) choice).map ownNext =
      (progress.next fleet now table choice).map ownNext := by
  cases progress with
  | pending => simp only [Progress.next, pendingJobs_own prisma confined]
  | safeBlocked =>
      have safe : (fleet.own table).select (fleet.package.safeBlocked fleet.settings now) =
          table.select (fleet.package.safeBlocked fleet.settings now) :=
        select_own_of_confined confined
      simp only [Progress.next, safe]
  | safeLaggy =>
      have safe : (fleet.own table).select (fleet.package.safeLaggy fleet.settings now) =
          table.select (fleet.package.safeLaggy fleet.settings now) :=
        select_own_of_confined confined
      simp only [Progress.next, safe]
  | riskyBlocked =>
      have reset : fleet.resets now ((fleet.own table).select
          (fleet.package.riskyBlocked fleet.settings now)) =
          fleet.resets now (table.select (fleet.package.riskyBlocked fleet.settings now)) := by
        rw [select_own]
        refine resets_filter fun job member next => ?_
        obtain ⟨present, blocked⟩ := JobTable.mem_select.mp member
        exact confined job present ((Bool.and_eq_true _ _).mpr ⟨blocked, next⟩)
      simp only [Progress.next, reset]
  | otherLaggy =>
      let laggyJobs := table.select (fleet.package.otherLaggy fleet.settings now)
      have present : ∀ job ∈ laggyJobs, job ∈ table.rows ∧
          fleet.package.otherLaggy fleet.settings now job = true := fun job member =>
        JobTable.mem_select.mp member
      have reset : fleet.resets now ((laggyJobs.filter fleet.owns).filter
          (fleet.package.resetsLaggy fleet.settings now)) =
          fleet.resets now (laggyJobs.filter (fleet.package.resetsLaggy fleet.settings now)) := by
        rw [List.filter_comm]
        refine resets_filter fun job member next => ?_
        obtain ⟨listed, resets⟩ := List.mem_filter.mp member
        refine confined job (present job listed).1 ?_
        simp only [Progress.concerns, (present job listed).2, resets, next, Bool.true_and,
          Bool.or_true]
      have notify : (laggyJobs.filter fleet.owns).filter (notifiesLaggy fleet.settings) =
          laggyJobs.filter (notifiesLaggy fleet.settings) := by
        rw [List.filter_comm]
        refine List.filter_eq_self.mpr fun job member => ?_
        obtain ⟨listed, notifies⟩ := List.mem_filter.mp member
        refine confined job (present job listed).1 ?_
        simp only [Progress.concerns, (present job listed).2, notifies, Bool.true_and, Bool.true_or]
      simp only [Progress.next, select_own]
      change Option.map ownNext (some ((Progress.afterLaggy _ _).1, fleet.reported (fleet.resets now
        ((laggyJobs.filter fleet.owns).filter _)) ++ _)) = _
      rw [reset, notify]
  | restartBlocked ids | restartLaggy ids => rfl
  | resetBlocked resets | resetLaggy resets notifyJobs => rfl

/-- A pass selects no row of another namespace that it would change or report. -/
def Confined (fleet : Fleet) (now : Int) (table : JobTable) (ticket : Ticket) : Prop :=
  ∀ loaded progress, ticket.stage = .maintaining loaded progress →
    ∀ row ∈ table.rows, progress.concerns fleet now table row = true → fleet.owns row = true

/-- A ticket is answered as it is without the other namespaces. -/
theorem answer_own (prisma : fleet.package = .prisma)
    (confined : ∀ choice, answer = .done choice → Confined fleet now table ticket) :
    (ticket.answer fleet now (fleet.own table) answer).map Outcome.own =
      (ticket.answer fleet now table answer).map Outcome.own := by
  cases answer with
  | done choice =>
      change (ticket.answered fleet now _ choice).map _ = (ticket.answered fleet now _ choice).map _
      cases stage : ticket.stage with
      | maintaining loaded progress =>
          have next := next_own prisma choice (confined choice rfl loaded progress stage)
          simp only [Ticket.answered, stage, Option.map_map]
          change Option.map (fun next => (Ticket.proceed fleet now loaded _ next).own) _ =
            Option.map (fun next => (Ticket.proceed fleet now loaded _ next).own) _
          simp only [own_proceed]
          have split : ∀ result, Option.map (fun next => Ticket.proceed fleet now loaded
              (progress.statement fleet now choice) (ownNext next)) result =
              Option.map (Ticket.proceed fleet now loaded (progress.statement fleet now choice))
                (Option.map ownNext result) := by
            intro result
            rw [Option.map_map]
            rfl
          rw [split, split, next]
      | _ => simp only [Ticket.answered, stage, lookUp_own prisma, update_own prisma]
  | _ => rfl

end Answers

/-! ## Runs -/

section Runs

variable {state : State}

theorem State.own_own (state : State) :
    State.own fleet (State.own fleet state) = State.own fleet state := by
  simp only [State.own, Fleet.own_own, List.filter_filter, Bool.and_self]

theorem own_advance (index : Nat) (ticket : Ticket) (answer : Answer) (outcome : Outcome) :
    State.own fleet ((State.own fleet state).advance index ticket answer outcome.own) =
      State.own fleet (state.advance index ticket answer outcome) := by
  have table : fleet.own (outcome.statement.apply (fleet.own state.table)) =
      fleet.own (outcome.statement.apply state.table) := own_apply _ _
  have reports : (fun entry : Entry => entry.deed.reports) ∘ Entry.mk ticket.job =
      Deed.reports := rfl
  simp only [State.own, State.advance, Outcome.own, table, List.filter_append, List.filter_filter,
    Bool.and_self, List.filter_map, reports]

/-- A tick enqueues rows of its namespace only. -/
theorem enqueued_own (process : Nat) {ids : List String} (present : state.Enqueueable fleet ids) :
    (State.own fleet state).enqueued process ids = state.enqueued process ids := by
  refine List.filterMap_congr fun id listed => ?_
  obtain ⟨row, found, ready⟩ := present id listed
  have owned : fleet.owns row = true := ((Bool.and_eq_true _ _).mp ready).2
  change ((fleet.own state.table).find id).map _ = _
  rw [own, JobTable.find_delete, Option.mem_def.mp found, Option.filter_some, owned]
  rfl

/-- A row may be enqueued if it may be without the other namespaces. -/
theorem enqueueable_own (table : JobTable) (now : Int) (id : String) :
    ((fleet.own table).find id).any (fleet.enqueueable now) =
      (table.find id).any (fleet.enqueueable now) := by
  rw [own, JobTable.find_delete]
  cases table.find id with
  | none => rfl
  | some row =>
      cases owned : fleet.owns row <;> simp [enqueueable, owned]

/-- A tick does to the rows of the namespace what it does without the other ones. -/
theorem step_enqueue_own (process : Nat) (ids : List String) :
    (step fleet (State.own fleet state) (.enqueue process ids)).map (State.own fleet) =
      (step fleet state (.enqueue process ids)).map (State.own fleet) := by
  let due (state : State) : Bool :=
    ids.all fun id => (state.table.find id).any (fleet.enqueueable state.now)
  have same : due (State.own fleet state) = due state := by
    change ids.all (fun id => ((fleet.own state.table).find id).any
      (fleet.enqueueable state.now)) = _
    simp only [enqueueable_own, due]
  by_cases allowed : state.idle process state.tickets.length = true ∧ ids.Nodup ∧
      ids.length ≤ fleet.settings.enqueueLimit ∧ due state = true
  · have moved : step fleet state (.enqueue process ids) = some _ := if_pos allowed
    have ownMoved : step fleet (State.own fleet state) (.enqueue process ids) = some _ :=
      if_pos ⟨allowed.1, allowed.2.1, allowed.2.2.1, same.trans allowed.2.2.2⟩
    have tickets := enqueued_own process (step_enqueue moved).2.1
    have table : fleet.own ((fleet.own state.table).write _ _) =
        fleet.own (state.table.write _ _) :=
      own_apply (.write (fun row => row.id ∈ ids)
        { queued := some true, lastRunAt := some state.now }) state.table
    rw [moved, ownMoved, tickets]
    refine congrArg some ?_
    simp only [State.own, List.filter_filter, Bool.and_self]
    exact congrArg (fun table => State.mk _ table _ _ _) table
  · have refused : step fleet state (.enqueue process ids) = none := if_neg allowed
    have ownRefused : step fleet (State.own fleet state) (.enqueue process ids) = none := by
      refine if_neg fun kept => allowed ?_
      exact ⟨kept.1, kept.2.1, kept.2.2.1, same.symm.trans kept.2.2.2⟩
    rw [refused, ownRefused]

/-- A pass that does not stray concerns no other namespace. -/
theorem confined_of_keeps {index : Nat} {ticket : Ticket} {answer : Answer}
    (found : state.tickets[index]? = some ticket)
    (keeps : state.strays fleet (.act index answer) = false) :
    ∀ choice, answer = .done choice → Confined fleet state.now state.table ticket := by
  rintro choice rfl loaded progress stage row present concerned
  simp only [State.strays, found, Option.any_some, stage, List.any_eq_false, Bool.and_eq_true,
    not_and] at keeps
  by_contra foreign
  exact keeps row present (by simpa using foreign) concerned

/-- An answer does to the rows of the namespace what it does without the other ones. -/
theorem step_act_own (prisma : fleet.package = .prisma) {index : Nat} {answer : Answer}
    (keeps : state.strays fleet (.act index answer) = false) :
    (step fleet (State.own fleet state) (.act index answer)).map (State.own fleet) =
      (step fleet state (.act index answer)).map (State.own fleet) := by
  cases found : state.tickets[index]? with
  | none =>
      have ownFound : (State.own fleet state).tickets[index]? = none := found
      simp only [step, found, ownFound]
  | some ticket =>
      have ownFound : (State.own fleet state).tickets[index]? = some ticket := found
      by_cases turn : answer = .begun → state.idle ticket.process index = true
      · have answered := answer_own prisma (confined_of_keeps found keeps)
        let proceed (outcome : Outcome) : State :=
          State.own fleet ((State.own fleet state).advance index ticket answer outcome)
        have outside : State.own fleet ∘ state.advance index ticket answer =
            proceed ∘ Outcome.own := funext fun outcome => (own_advance ..).symm
        have inside : State.own fleet ∘ (State.own fleet state).advance index ticket answer =
            proceed ∘ Outcome.own := by
          funext outcome
          have advanced : State.own fleet ((State.own fleet (State.own fleet state)).advance index
              ticket answer outcome.own) = _ := own_advance index ticket answer outcome
          rw [State.own_own] at advanced
          exact advanced.symm
        rw [step_act_eq found turn, step_act_eq ownFound turn, Option.map_map, Option.map_map,
          outside, inside, ← Option.map_map, ← Option.map_map]
        exact congrArg (Option.map proceed) answered
      · push Not at turn
        obtain ⟨rfl, busy⟩ := turn
        have ownBusy : (State.own fleet state).idle ticket.process index = false :=
          Bool.eq_false_iff.mpr busy
        have busy : state.idle ticket.process index = false := ownBusy
        simp only [step, found, ownFound, busy, ownBusy]

/-- Every separate event does to the rows of the namespace what it does without the other ones. -/
theorem step_own (prisma : fleet.package = .prisma) {event : Event}
    (separate : Separate fleet state event) :
    (step fleet (State.own fleet state) event).map (State.own fleet) =
      (step fleet state event).map (State.own fleet) := by
  obtain ⟨operates, keeps⟩ := separate
  cases event with
  | elapse duration =>
      change some (State.own fleet _) = some (State.own fleet _)
      simp only [State.own, own_own, List.filter_filter, Bool.and_self]
  | enqueue process ids => exact step_enqueue_own process ids
  | act index answer => exact step_act_own prisma keeps
  | crash process =>
      change some (State.own fleet _) = some (State.own fleet _)
      simp only [State.own, own_own, List.filter_filter, Bool.and_self]
  | findFirst => cases operates
  | create id => cases operates
  | abandon => cases operates

end Runs

/-! ## Rows of other namespaces -/

/-- A pass is about to change rows of its namespace only. -/
def Progress.Owned (fleet : Fleet) (table : JobTable) : Progress → Prop
  | .restartBlocked ids | .restartLaggy ids =>
      ∀ row ∈ table.rows, row.id ∈ ids → fleet.owns row = true
  | .resetBlocked resets | .resetLaggy resets _ =>
      ∀ reset ∈ resets.jobs, fleet.owns reset.1 = true
  | _ => True

/-- A ticket is about to change rows of its namespace only. -/
def Stage.Owned (fleet : Fleet) (table : JobTable) : Stage → Prop
  | .maintaining _ progress => progress.Owned fleet table
  | .requeueing found | .counting found => fleet.owns found = true
  | _ => True

section Foreign

variable {now : Int} {table : JobTable} {ticket : Ticket} {answer : Answer} {outcome : Outcome}

theorem Stage.Owned.apply {stage : Stage} (owned : stage.Owned fleet table)
    (statement : Statement) : stage.Owned fleet (statement.apply table) := by
  have listed : ∀ {ids : List String},
      (∀ row ∈ table.rows, row.id ∈ ids → fleet.owns row = true) →
      ∀ row ∈ (statement.apply table).rows, row.id ∈ ids → fleet.owns row = true := by
    intro ids owned row member
    obtain ⟨earlier, present, update, rfl⟩ := Statement.mem_apply member
    exact owned earlier present
  cases stage with
  | maintaining loaded progress =>
      cases progress with
      | restartBlocked ids => exact listed owned
      | restartLaggy ids => exact listed owned
      | _ => exact owned
  | _ => exact owned

/-- Rows with the same key belong to the same namespace. -/
theorem owns_of_key {row found : JobRow}
    (same : row.nameSpace.filter (· ≠ "") = found.nameSpace.filter (· ≠ ""))
    (owned : fleet.owns found = true) : fleet.owns row = true := by
  rw [owns] at owned ⊢
  split at owned
  · rfl
  · rename_i nameSpace named
    have filled := (Option.filter_eq_some_iff.mp named).2
    have equal : found.nameSpace = some nameSpace := of_decide_eq_true owned
    rw [equal, Option.filter_some, if_pos filled] at same
    exact decide_eq_true (Option.filter_eq_some_iff.mp same).1

theorem owned_afterBlocked {resets : List (JobRow × Option Int)}
    (owned : ∀ reset ∈ resets, fleet.owns reset.1 = true) :
    (Progress.afterBlocked resets).Owned fleet table := by
  rw [Progress.afterBlocked]
  split
  · trivial
  · exact owned

theorem owned_afterLaggy {resets : List (JobRow × Option Int)} {notifyJobs : List JobRow}
    (owned : ∀ reset ∈ resets, fleet.owns reset.1 = true) :
    ∀ following ∈ (Progress.afterLaggy resets notifyJobs).1, following.Owned fleet table := by
  intro following continues
  rw [Progress.afterLaggy] at continues
  split at continues
  · cases continues
  · obtain rfl := Option.some.inj continues
    exact owned

/-- The jobs that a pass resets are those that concern it. -/
theorem owned_resets {jobs : List JobRow}
    (reset : ∀ job ∈ jobs,
      (fleet.package.nextReset fleet.library fleet.moment now job).isSome = true →
        fleet.owns job = true) :
    ∀ reset ∈ fleet.resets now jobs, fleet.owns reset.1 = true := by
  intro entry listed
  obtain ⟨job, member, made⟩ := List.mem_filterMap.mp listed
  obtain ⟨nextRunAt, next, rfl⟩ := Option.map_eq_some_iff.mp made
  exact reset job member (by rw [next]; rfl)

theorem owned_execute (loaded : Option JobRow) (statement : Statement) :
    (ticket.execute loaded statement).stage.Owned fleet table :=
  Ticket.execute_induction (motive := Stage.Owned fleet table) (fun _ => trivial) trivial

theorem owned_dispose (loaded row : JobRow) :
    (Ticket.dispose fleet now loaded row).Owned fleet table :=
  Ticket.dispose_induction (motive := Stage.Owned fleet table) trivial (fun _ => trivial) trivial

theorem owned_finish (loaded : Option JobRow) :
    (Ticket.finish fleet now loaded).Owned fleet table :=
  Ticket.finish_induction (motive := Stage.Owned fleet table) (fun _ => trivial)
    (fun _ _ => trivial) (fun _ _ => trivial) (fun _ _ _ => trivial) (fun _ _ => trivial)

/-- A pass that concerns no other namespace goes on to rows of its namespace only. -/
theorem owned_next {choice : Nat} {progress : Progress} {next : Option Progress × List Notice}
    (owned : progress.Owned fleet table)
    (confined : ∀ row ∈ table.rows,
      progress.concerns fleet now table row = true → fleet.owns row = true)
    (continues : progress.next fleet now table choice = some next) :
    ∀ following ∈ next.1, following.Owned fleet table := by
  cases progress with
  | pending =>
      simp only [Progress.next] at continues
      split at continues <;> obtain rfl := Option.some.inj continues <;> rintro following ⟨⟩
      trivial
  | safeBlocked =>
      simp only [Progress.next] at continues
      split at continues <;> obtain rfl := Option.some.inj continues <;> rintro following ⟨⟩
      · trivial
      · exact fun row present listed => confined row present ((mem_ids_select present).mp listed)
  | restartBlocked ids =>
      obtain rfl := Option.some.inj continues
      rintro following ⟨⟩
      trivial
  | riskyBlocked =>
      obtain rfl := Option.some.inj continues
      rintro following ⟨⟩
      refine owned_afterBlocked (owned_resets fun job member next => ?_)
      obtain ⟨present, blocked⟩ := JobTable.mem_select.mp member
      exact confined job present ((Bool.and_eq_true _ _).mpr ⟨blocked, next⟩)
  | resetBlocked resets =>
      simp only [Progress.next] at continues
      split at continues
      · obtain rfl := Option.some.inj continues
        rintro following ⟨⟩
        exact owned_afterBlocked fun reset left => owned reset (List.mem_of_mem_eraseIdx left)
      · cases continues
  | safeLaggy =>
      simp only [Progress.next] at continues
      split at continues <;> obtain rfl := Option.some.inj continues <;> rintro following ⟨⟩
      · trivial
      · exact fun row present listed => confined row present ((mem_ids_select present).mp listed)
  | restartLaggy ids =>
      obtain rfl := Option.some.inj continues
      rintro following ⟨⟩
      trivial
  | otherLaggy =>
      obtain rfl := Option.some.inj continues
      refine owned_afterLaggy (owned_resets fun job member next => ?_)
      obtain ⟨listed, resets⟩ := List.mem_filter.mp member
      obtain ⟨present, laggy⟩ := JobTable.mem_select.mp listed
      refine confined job present ?_
      simp only [Progress.concerns, laggy, resets, next, Bool.true_and, Bool.or_true]
  | resetLaggy resets notifyJobs =>
      simp only [Progress.next] at continues
      split at continues
      · obtain rfl := Option.some.inj continues
        exact owned_afterLaggy fun reset left => owned reset (List.mem_of_mem_eraseIdx left)
      · cases continues

/-- A refused statement of a pass leaves it with rows of its namespace only. -/
theorem owned_refused {choice : Nat} {progress : Progress} {next : Option Progress × List Notice}
    (owned : progress.Owned fleet table) (continues : progress.refused choice = some next) :
    ∀ following ∈ next.1, following.Owned fleet table := by
  cases progress with
  | resetBlocked resets =>
      simp only [Progress.refused] at continues
      split at continues
      · obtain rfl := Option.some.inj continues
        rintro following ⟨⟩
        exact owned_afterBlocked fun reset left => owned reset (List.mem_of_mem_eraseIdx left)
      · cases continues
  | resetLaggy resets notifyJobs =>
      simp only [Progress.refused] at continues
      split at continues
      · obtain rfl := Option.some.inj continues
        exact owned_afterLaggy fun reset left => owned reset (List.mem_of_mem_eraseIdx left)
      · cases continues
  | _ =>
      obtain rfl := Option.some.inj continues
      rintro following ⟨⟩

/-- The statement of such a pass selects rows of its namespace only. -/
theorem owned_statement (prisma : fleet.package = .prisma) {choice : Nat} {progress : Progress}
    (owned : progress.Owned fleet table) :
    ∀ row ∈ table.rows, (progress.statement fleet now choice).selects row = true →
      fleet.owns row = true := by
  have reset : ∀ resets : Resets, (∀ reset ∈ resets.jobs, fleet.owns reset.1 = true) →
      ∀ row, (resets.jobs[choice]?.elim Statement.read fleet.resetStatement).selects row = true →
        fleet.owns row = true := by
    intro resets owned row selected
    cases found : resets.jobs[choice]? with
    | none =>
        rw [found] at selected
        cases selected
    | some reset =>
        rw [found] at selected
        change fleet.package.resets reset.1 row = true at selected
        simp only [prisma, Package.resets, decide_eq_true_eq] at selected
        exact owns_of_key (congrArg Prod.snd selected) (owned reset (List.mem_of_getElem? found))
  intro row present selected
  cases progress with
  | restartBlocked ids => exact owned row present (of_decide_eq_true selected)
  | restartLaggy ids => exact owned row present (of_decide_eq_true selected)
  | resetBlocked resets => exact reset resets owned row selected
  | resetLaggy resets notifyJobs => exact reset resets owned row selected
  | safeBlocked =>
      simp only [Progress.statement, prisma] at selected
      cases selected
  | safeLaggy =>
      simp only [Progress.statement, prisma] at selected
      cases selected
  | pending | riskyBlocked | otherLaggy => cases selected

theorem owned_proceed {loaded : Option JobRow} {statement : Statement}
    {next : Option Progress × List Notice}
    (owned : ∀ following ∈ next.1, following.Owned fleet table) :
    (Ticket.proceed fleet now loaded statement next).stage.Owned fleet table := by
  rw [Ticket.proceed]
  cases continues : next.1 with
  | some following => exact owned following continues
  | none => exact owned_finish loaded

theorem owned_answer (prisma : fleet.package = .prisma) (owned : ticket.stage.Owned fleet table)
    (confined : ∀ choice, answer = .done choice → Confined fleet now table ticket)
    (answered : ticket.answer fleet now table answer = some outcome) :
    outcome.stage.Owned fleet table := by
  cases Ticket.reaction answered with
  | launched stage =>
      exact Ticket.launch_induction (motive := Stage.Owned fleet table) trivial trivial trivial
        fun _ => owned_execute none .read
  | consumed stage =>
      exact Ticket.consume_induction (motive := Stage.Owned fleet table) trivial
        (owned_execute none .read)
  | @succeeded loaded stage => exact owned_finish loaded
  | @failed loaded stage => cases loaded <;> trivial
  | unwrapped stage => exact owned_execute none .read
  | accepted stage => exact owned_execute _ _
  | @continued choice loaded progress next stage continues =>
      rw [stage] at owned
      exact owned_proceed (owned_next owned (confined choice rfl loaded progress stage) continues)
  | interrupted stage continues =>
      rw [stage] at owned
      exact owned_proceed (owned_refused owned continues)
  | @disposed choice loaded row stage present => exact owned_dispose loaded row
  | @reread choice loaded row stage _ present =>
      have ours : fleet.owns row = true := by
        have addressed := (Option.filter_eq_some_iff.mp present).2
        simp only [addresses, prisma, Bool.and_eq_true] at addressed
        exact addressed.2
      dsimp only
      split <;> exact ours
  | requeued stage =>
      rw [stage] at owned
      exact owned
  | _ => trivial

/-- A ticket changes rows of its namespace only. -/
theorem answer_confined (prisma : fleet.package = .prisma) (owned : ticket.stage.Owned fleet table)
    (answered : ticket.answer fleet now table answer = some outcome) :
    ∀ row ∈ table.rows, outcome.statement.selects row = true → fleet.owns row = true := by
  intro row present selected
  rcases Ticket.answer_addresses answered selected with addressed | ⟨found, stage, same⟩ | maintains
  · simp only [addresses, prisma, Bool.and_eq_true] at addressed
    exact addressed.2
  · rw [stage] at owned
    exact owns_of_key (congrArg Prod.snd same) owned
  · simp only [Ticket.maintains] at maintains
    split at maintains
    · rename_i loaded progress choice stage
      rw [stage] at owned
      exact owned_statement prisma owned row present maintains
    · cases maintains

end Foreign

/-- All tickets are about to change rows of the namespace only. -/
def Enclosed (fleet : Fleet) (state : State) : Prop :=
  ∀ ticket ∈ state.tickets, ticket.stage.Owned fleet state.table

/-- Every separate event leaves the rows of other namespaces as they are. -/
theorem Enclosed.step (prisma : fleet.package = .prisma) {before after : State} {event : Event}
    (enclosed : Enclosed fleet before) (separate : Separate fleet before event)
    (moved : step fleet before event = some after) :
    Enclosed fleet after ∧ after.table.rows.filter (fun row => !fleet.owns row) =
      before.table.rows.filter fun row => !fleet.owns row := by
  obtain ⟨operates, keeps⟩ := separate
  cases event with
  | elapse duration =>
      obtain rfl := Option.some.inj moved
      exact ⟨enclosed, rfl⟩
  | enqueue process ids =>
      obtain ⟨-, present, rfl⟩ := step_enqueue moved
      constructor
      · intro ticket member
        rcases List.mem_append.mp member with old | new
        · exact (enclosed ticket old).apply (.write _ _)
        · rw [(State.mem_enqueued new).2.2.1]
          trivial
      · have confined : ∀ row ∈ before.table.rows, (Statement.write (fun row => row.id ∈ ids)
            { queued := some true, lastRunAt := some before.now }).selects row = true →
              fleet.owns row = true := by
          intro row member selected
          obtain ⟨due, found, ready⟩ := present row.id (of_decide_eq_true selected)
          obtain rfl := Option.some.inj ((JobTable.find_of_mem member).symm.trans found)
          exact ((Bool.and_eq_true _ _).mp ready).2
        exact foreign_apply confined
  | act index answer =>
      obtain ⟨ticket, outcome, found, -, answered, rfl⟩ := step_act moved
      have owned := enclosed ticket (List.mem_of_getElem? found)
      constructor
      · intro later member
        rcases mem_advance found member with rfl | ⟨position, -, isLater⟩
        · exact (owned_answer prisma owned (confined_of_keeps found keeps) answered).apply _
        · exact (enclosed later (List.mem_of_getElem? isLater)).apply _
      · exact foreign_apply (answer_confined prisma owned answered)
  | crash process =>
      obtain rfl := Option.some.inj moved
      refine ⟨?_, rfl⟩
      intro later member
      obtain ⟨ticket, old, rfl⟩ := List.mem_map.mp member
      rcases crashed_cases process ticket with same | ⟨-, settled⟩
      · rw [same]
        exact enclosed ticket old
      · rw [settled]
        trivial
  | findFirst => cases operates
  | create id => cases operates
  | abandon => cases operates

/-- The rows of other namespaces are never modified, and two tables that differ only in such rows
are treated alike: the same events can happen, with the same rows of the namespace, tickets and
reports; as long as no pass finds a row of another namespace that it would change or report. -/
theorem namespaces_isolated {nameSpace : String} (prisma : fleet.package = .prisma)
    (named : fleet.settings.nameSpace = some nameSpace) (filled : nameSpace ≠ "")
    {now : Int} {left right : JobTable}
    (alike : left.rows.filter (fun row => row.nameSpace = some nameSpace) =
      right.rows.filter fun row => row.nameSpace = some nameSpace)
    {events : List Event}
    (leftSeparate : (system fleet).Along (Separate fleet) events (State.initial now left))
    (rightSeparate : (system fleet).Along (Separate fleet) events (State.initial now right))
    {final : State} (execution : (system fleet).run events (State.initial now left) = some final) :
    final.table.rows.filter (fun row => row.nameSpace ≠ some nameSpace) =
      left.rows.filter (fun row => row.nameSpace ≠ some nameSpace) ∧
    ∃ other, (system fleet).run events (State.initial now right) = some other ∧
      other.table.rows.filter (fun row => row.nameSpace = some nameSpace) =
        final.table.rows.filter (fun row => row.nameSpace = some nameSpace) ∧
      other.tickets = final.tickets ∧
      other.log.filter (fun entry => entry.deed.reports) =
        final.log.filter fun entry => entry.deed.reports := by
  have owns : fleet.owns = fun row => decide (row.nameSpace = some nameSpace) := by
    funext row
    simp only [Fleet.owns, named, Option.filter_some, filled, ne_eq, not_false_eq_true, decide_true,
      if_true]
  constructor
  · have preserved : ∀ before event after, (Enclosed fleet before ∧
        before.table.rows.filter (fun row => !fleet.owns row) =
          left.rows.filter fun row => !fleet.owns row) → Separate fleet before event →
        (system fleet).step before event = some after → (Enclosed fleet after ∧
          after.table.rows.filter (fun row => !fleet.owns row) =
            left.rows.filter fun row => !fleet.owns row) := by
      intro before event after ⟨enclosed, same⟩ separate moved
      obtain ⟨encloses, kept⟩ := enclosed.step prisma separate moved
      exact ⟨encloses, kept.trans same⟩
    have initial : Enclosed fleet (State.initial now left) := fun ticket member => by cases member
    have kept := (System.invariant_run preserved ⟨initial, rfl⟩ leftSeparate execution).2
    simpa only [owns, decide_not, ne_eq] using kept
  · have respects : ∀ first second event, State.own fleet first = State.own fleet second →
        Separate fleet first event → Separate fleet second event →
        ((system fleet).step first event).map (State.own fleet) =
          ((system fleet).step second event).map (State.own fleet) := by
      intro first second event same firstSeparate secondSeparate
      have one := step_own prisma firstSeparate
      have two := step_own prisma secondSeparate
      rw [same] at one
      exact one.symm.trans two
    have start : State.own fleet (State.initial now left) =
        State.own fleet (State.initial now right) := by
      have tables : fleet.own left = fleet.own right := by
        refine JobTable.eq_of_rows ?_
        rw [own_rows, own_rows, owns]
        exact alike
      exact congrArg (fun table => State.mk now table [] 0 []) tables
    have runs := System.run_congr respects start leftSeparate rightSeparate
    rw [execution, Option.map_some] at runs
    obtain ⟨other, execution, same⟩ := Option.map_eq_some_iff.mp runs.symm
    have rows := congrArg (fun state => state.table.rows) same
    simp only [State.own, own_rows, owns] at rows
    have tickets := congrArg State.tickets same
    have logs := congrArg State.log same
    exact ⟨other, execution, rows, tickets, logs⟩

/-! ## A pass of the wrong namespace -/

def shopSettings : Settings where
  jobsSafeToRestart := ["mail"]
  jobsRiskyToRestart := ["payment"]
  jobsCustomRestart := []
  tasks := ["mail", "payment"]
  wrapped := ["mail", "payment"]
  nameSpace := some "shop"

def shopFleet : Fleet where
  library := hourlyRules
  moment := universalTime
  package := .prisma
  settings := shopSettings

/-- The maintenance job of the shop. -/
def shopCheck : JobRow := { dueRow "1" MAINTENANCE_JOB_NAME with nameSpace := some "shop" }

/-- A job of the bank that has been queued for an hour. -/
def bankRow (id name : String) : JobRow :=
  { dueRow id name with
    nameSpace := some "bank", queued := true, lastRunAt := some (exactSecond - minutes 60) }

/-- The report of the bank was accepted and has not finished. -/
def bankReport : JobRow :=
  { bankRow "3" "report" with acceptedAt := some (exactSecond - minutes 59) }

def shopTable : JobTable := ⟨[shopCheck, bankRow "2" "mail", bankReport], by decide⟩

/-- The jobs of the bank are handled by the bank. -/
def tidyTable : JobTable :=
  ⟨[shopCheck, { bankRow "2" "mail" with
    queued := false, nextRunAt := some (exactSecond + minutes 60) }], by decide⟩

def shopOnly : JobTable := ⟨[shopCheck], by decide⟩

/-- The shop enqueues its maintenance job, and the pass has carried out some statements. -/
def shopRun (statements : Nat) : List Event :=
  [.enqueue 0 ["1"]] ++ calls 0 ++ List.replicate statements (.act 0 (.done 0))

/-- The jobs that an entry of the log reports as lagged. -/
def Entry.laggedIds (entry : Entry) : List String :=
  match entry.deed with
  | .emitted (.lagged jobs) => jobs.map fun job => job.id
  | _ => []

theorem shop_observed :
    ((system shopFleet).run (shopRun 6) (State.initial (exactSecond + 500) shopTable)).map
      (fun final => (((final.table.find "2").map fun row => row.queued),
        final.log.flatMap Entry.laggedIds)) = some (some false, ["3"]) := by
  decide +kernel

/-- A pass of the shop releases the mail of the bank and reports its report. -/
theorem shop_repairs_bank : ∃ final,
    (system shopFleet).run (shopRun 6) (State.initial (exactSecond + 500) shopTable) = some final ∧
    (∃ row ∈ shopTable.rows, row.nameSpace ≠ some "shop" ∧ row ∉ final.table.rows) ∧
    ∃ entry ∈ final.log, ∃ id ∈ entry.laggedIds,
      ∃ row ∈ shopTable.rows, row.id = id ∧ row.nameSpace ≠ some "shop" := by
  obtain ⟨final, execution, observed⟩ := Option.map_eq_some_iff.mp shop_observed
  obtain ⟨released, reported⟩ := Prod.mk.inj observed
  refine ⟨final, execution, ⟨bankRow "2" "mail", by simp [shopTable], by decide, ?_⟩, ?_⟩
  · intro kept
    have found : final.table.find "2" = some (bankRow "2" "mail") := JobTable.find_of_mem kept
    rw [found] at released
    cases released
  · have listed : "3" ∈ final.log.flatMap Entry.laggedIds := by simp [reported]
    obtain ⟨entry, member, lagged⟩ := List.mem_flatMap.mp listed
    exact ⟨entry, member, "3", lagged, bankReport, by simp [shopTable], rfl, by decide⟩

/-- Where the bank has no stuck jobs, a pass of the shop leaves them alone and does what it does
without them. -/
theorem shop_keeps_to_itself : ∃ final,
    (system shopFleet).run (shopRun 6) (State.initial (exactSecond + 500) tidyTable) = some final ∧
    final.table.rows.filter (fun row => row.nameSpace ≠ some "shop") =
      tidyTable.rows.filter (fun row => row.nameSpace ≠ some "shop") ∧
    ∃ other, (system shopFleet).run (shopRun 6)
      (State.initial (exactSecond + 500) shopOnly) = some other ∧
      other.tickets = final.tickets := by
  obtain ⟨final, execution⟩ := Option.isSome_iff_exists.mp (show ((system shopFleet).run (shopRun 6)
    (State.initial (exactSecond + 500) tidyTable)).isSome = true by decide +kernel)
  have alike : tidyTable.rows.filter (fun row => row.nameSpace = some "shop") =
      shopOnly.rows.filter fun row => row.nameSpace = some "shop" := rfl
  have tidy : (system shopFleet).Along (Separate shopFleet) (shopRun 6)
      (State.initial (exactSecond + 500) tidyTable) := by decide +kernel
  have only : (system shopFleet).Along (Separate shopFleet) (shopRun 6)
      (State.initial (exactSecond + 500) shopOnly) := by decide +kernel
  obtain ⟨unmodified, other, runs, -, tickets, -⟩ :=
    namespaces_isolated rfl rfl (by decide) alike tidy only execution
  exact ⟨final, execution, unmodified, other, runs, tickets⟩

end Steveo.Scheduler.Fleet
