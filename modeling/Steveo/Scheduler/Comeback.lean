import Steveo.Scheduler.Overlap

/-!
# The way back of the maintenance job

The row of the maintenance job can be released as long as one of its tickets is under way.  The
processes lose it for good when the ticket is lost, because only the maintenance job repairs rows
and it does not repair its own.
-/

namespace Steveo.Scheduler.Fleet

variable {fleet : Fleet} {id : String}

/-- Some continuation releases the row of a job. -/
def CanReturn (fleet : Fleet) (id : String) (state : State) : Prop :=
  ∃ final, (system fleet).Reaches state final ∧ ∃ row ∈ final.table.find id, row.queued = false

theorem CanReturn.of_reaches {before after : State} (reaches : (system fleet).Reaches before after)
    (returns : CanReturn fleet id after) : CanReturn fleet id before := by
  obtain ⟨final, reached, released⟩ := returns
  exact ⟨final, reaches.trans reached, released⟩

/-! ## Driving one ticket -/

/-- Answering a ticket is a step when it is its turn. -/
theorem step_answer {state : State} {index : Nat} {ticket : Ticket} {answer : Answer}
    {outcome : Outcome} (found : state.tickets[index]? = some ticket)
    (turn : answer = .begun → state.idle ticket.process index = true)
    (answered : ticket.answer fleet state.now state.table answer = some outcome) :
    (system fleet).step state (.act index answer) =
      some (state.advance index ticket answer outcome) :=
  (step_act_eq found turn).trans (by rw [answered, Option.map_some])

/-- A run that answers one ticket only and changes nothing else but the log. -/
structure Leads (fleet : Fleet) (index : Nat) (before after : State) : Prop where
  reaches : (system fleet).Reaches before after
  now : after.now = before.now
  table : after.table = before.table
  others : ∀ other, other ≠ index → after.tickets[other]? = before.tickets[other]?

theorem Leads.refl (index : Nat) (state : State) : Leads fleet index state state where
  reaches := System.Reaches.refl _ state
  now := rfl
  table := rfl
  others _ _ := rfl

theorem Leads.trans {index : Nat} {before middle after : State}
    (first : Leads fleet index before middle) (second : Leads fleet index middle after) :
    Leads fleet index before after where
  reaches := first.reaches.trans second.reaches
  now := second.now.trans first.now
  table := second.table.trans first.table
  others other different := (second.others other different).trans (first.others other different)

section Driving

variable {state : State} {index : Nat} {ticket : Ticket} {answer : Answer} {outcome : Outcome}

theorem advance_ticket (found : state.tickets[index]? = some ticket) :
    (state.advance index ticket answer outcome).tickets[index]? =
      some (ticket.advanced answer outcome.stage) :=
  List.getElem?_set_self (List.getElem?_eq_some_iff.mp found).1

/-- An answer that changes no row leads to the next stage of the ticket. -/
theorem leads_answer (found : state.tickets[index]? = some ticket)
    (turn : answer = .begun → state.idle ticket.process index = true)
    (answered : ticket.answer fleet state.now state.table answer = some outcome)
    (read : outcome.statement = .read) :
    Leads fleet index state (state.advance index ticket answer outcome) where
  reaches := System.Reaches.single (step_answer found turn answered)
  now := rfl
  table := by rw [State.advance, read]; rfl
  others other different := List.getElem?_set_ne (Ne.symm different)

/-- How many resets of a pass are pending. -/
def Progress.resetsLeft : Progress → Nat
  | .resetBlocked resets | .resetLaggy resets _ => resets.jobs.length
  | _ => 0

/-- Refusing one statement of a pass ends it or leaves fewer resets. -/
theorem refused_progress (progress : Progress) :
    ∃ next, progress.refused 0 = some next ∧
      ∀ following ∈ next.1, following.resetsLeft < progress.resetsLeft := by
  cases progress with
  | resetBlocked resets =>
      have some_left := List.length_pos_iff.mpr resets.pending
      refine ⟨_, if_pos some_left, ?_⟩
      intro following continues
      obtain rfl := Option.some.inj continues
      rw [Progress.afterBlocked]
      split
      · exact some_left
      · simp only [Progress.resetsLeft, List.length_eraseIdx_of_lt some_left]
        omega
  | resetLaggy resets notifyJobs =>
      have some_left := List.length_pos_iff.mpr resets.pending
      refine ⟨_, if_pos some_left, ?_⟩
      intro following continues
      rw [Progress.afterLaggy] at continues
      split at continues
      · cases continues
      · obtain rfl := Option.some.inj continues
        simp only [Progress.resetsLeft, List.length_eraseIdx_of_lt some_left]
        omega
  | _ => exact ⟨(none, []), rfl, fun _ continues => by cases continues⟩

/-- A pass ends when all of its statements are refused. -/
theorem leads_finish {loaded : Option JobRow} {progress : Progress}
    (found : state.tickets[index]? = some ticket)
    (stage : ticket.stage = .maintaining loaded progress) :
    ∃ after, Leads fleet index state after ∧ after.tickets[index]? =
      some { ticket with stage := Ticket.finish fleet state.now loaded } := by
  obtain ⟨left, bound⟩ : ∃ left, progress.resetsLeft < left := ⟨_, Nat.lt_succ_self _⟩
  induction left generalizing state ticket progress with
  | zero => cases bound
  | succ left induction =>
      obtain ⟨next, refused, fewer⟩ := refused_progress progress
      have answered : ticket.answer fleet state.now state.table (.refused 0) =
          some (Ticket.proceed fleet state.now loaded .read next) := by
        simp only [Ticket.answer, Ticket.refused, stage, refused, Option.map_some]
      have leads := leads_answer found (by rintro ⟨⟩) answered rfl
      have advanced : (state.advance index ticket (.refused 0) (Ticket.proceed fleet state.now
          loaded .read next)).tickets[index]? = _ := advance_ticket found
      cases continues : next.1 with
      | none =>
          refine ⟨_, leads, advanced.trans ?_⟩
          simp only [Ticket.advanced, Ticket.proceed, continues, Option.elim_none]
      | some following =>
          have fewer := fewer following continues
          have stage : (ticket.advanced (.refused 0)
              (Ticket.proceed fleet state.now loaded .read next).stage).stage =
                .maintaining loaded following := by
            simp only [Ticket.advanced, Ticket.proceed, continues, Option.elim_some]
          obtain ⟨after, rest, final⟩ := induction advanced stage (by omega)
          exact ⟨after, leads.trans rest, final⟩

/-- How many answers a ticket needs until no tick waits for it, if each of them is unfavourable. -/
def Stage.rank : Stage → Nat
  | .sent | .settled => 0
  | .lookingUp | .starting _ | .failing _ | .requeueing _ | .counting _ => 1
  | .finishing _ | .deleting _ | .storing _ _ | .executing _ => 2
  | .maintaining _ _ => 3
  | .waiting => 4

theorem Stage.rank_le (stage : Stage) : stage.rank ≤ 4 := by
  cases stage <;> simp [Stage.rank]

theorem rank_finish (now : Int) (loaded : Option JobRow) :
    (Ticket.finish fleet now loaded).rank ≤ 2 :=
  Ticket.finish_induction (motive := fun stage => stage.rank ≤ 2) (fun _ => Nat.zero_le 2)
    (fun _ _ => le_rfl) (fun _ _ => le_rfl) (fun _ _ _ => le_rfl) (fun _ _ => Nat.le_succ 1)

theorem rank_fail (loaded : Option JobRow) : (Ticket.fail loaded).rank ≤ 1 := by
  cases loaded <;> simp [Ticket.fail, Stage.rank]

theorem rank_launch (ticket : Ticket) : (ticket.launch fleet).stage.rank ≤ 3 := by
  have called : (ticket.execute none .read).stage.rank ≤ 3 :=
    Ticket.execute_induction (motive := fun stage => stage.rank ≤ 3) (fun _ => le_rfl)
      (Nat.le_succ 2)
  exact Ticket.launch_induction (motive := fun stage => stage.rank ≤ 3) (Nat.le_add_left 1 2)
    (Nat.zero_le 3) (Nat.zero_le 3) fun _ => called

/-- A ticket that is launched, whose task fails or whose statement is refused is closer to its
end. -/
theorem leads_lower (found : state.tickets[index]? = some ticket)
    (busy : ticket.stage.busy = true)
    (turn : ticket.stage = .waiting → state.idle ticket.process index = true) :
    ∃ after last, Leads fleet index state after ∧ after.tickets[index]? = some last ∧
      last.stage.rank < ticket.stage.rank := by
  have refuse : ∀ {outcome}, ticket.refused fleet state.now 0 = some outcome →
      outcome.stage.rank < ticket.stage.rank →
      ∃ after last, Leads fleet index state after ∧ after.tickets[index]? = some last ∧
        last.stage.rank < ticket.stage.rank := by
    intro outcome refused lower
    have answered : ticket.answer fleet state.now state.table (.refused 0) = some outcome := refused
    have leads := leads_answer found (by rintro ⟨⟩) answered (Ticket.refused_statement refused)
    exact ⟨_, _, leads, advance_ticket found, lower⟩
  rcases stage : ticket.stage with _ | _ | _ | loaded | loaded | ⟨loaded, progress⟩ | loaded |
    loaded | ⟨loaded, nextRunAt⟩ | loaded | row | row | _
  case waiting =>
    have begun : ticket.answer fleet state.now state.table .begun = some (ticket.launch fleet) :=
      Ticket.answer_begun.mpr ⟨stage, rfl⟩
    have leads := leads_answer found (fun _ => turn stage) begun Ticket.launch_statement
    exact ⟨_, _, leads, advance_ticket found, Nat.lt_succ_of_le (rank_launch ticket)⟩
  case executing =>
    have completed : ticket.answer fleet state.now state.table (.completed false) =
        some { stage := Ticket.fail loaded } :=
      Ticket.answer_completed.mpr ⟨loaded, stage, rfl⟩
    have leads := leads_answer found (by rintro ⟨⟩) completed rfl
    exact ⟨_, _, leads, advance_ticket found, Nat.lt_succ_of_le (rank_fail loaded)⟩
  case maintaining =>
    obtain ⟨after, leads, finished⟩ := leads_finish found stage
    exact ⟨after, _, leads, finished, Nat.lt_succ_of_le (rank_finish state.now loaded)⟩
  case sent => rw [stage] at busy; cases busy
  case settled => rw [stage] at busy; cases busy
  case storing =>
    rw [← stage]
    cases package : fleet.package with
    | prisma =>
        refine refuse (by simp only [Ticket.refused, stage, package]; rfl) ?_
        rw [stage]
        exact Nat.lt_succ_self 1
    | sequelize =>
        refine refuse (by simp only [Ticket.refused, stage, package]; rfl) ?_
        rw [stage]
        exact Nat.lt_succ_self 1
  all_goals
    rw [← stage]
    refine refuse (by simp only [Ticket.refused, stage]; rfl) ?_
    rw [stage]
    simp [Stage.rank, Ticket.settle]

/-- Any ticket whose turn it is can be driven until no tick waits for it. -/
theorem leads_end (found : state.tickets[index]? = some ticket)
    (turn : ticket.stage = .waiting → state.idle ticket.process index = true) :
    ∃ after last, Leads fleet index state after ∧ after.tickets[index]? = some last ∧
      last.stage.busy = false := by
  obtain ⟨bound, below⟩ : ∃ bound, ticket.stage.rank < bound := ⟨_, Nat.lt_succ_self _⟩
  induction bound generalizing state ticket with
  | zero => cases below
  | succ bound induction =>
      cases busy : ticket.stage.busy with
      | false => exact ⟨state, ticket, Leads.refl index state, found, busy⟩
      | true =>
          obtain ⟨middle, next, leads, isNext, lower⟩ := leads_lower found busy turn
          have started : next.stage = .waiting → middle.idle next.process index = true := by
            intro waiting
            have most := Stage.rank_le ticket.stage
            rw [waiting] at lower
            exact absurd lower (Nat.not_lt.mpr most)
          obtain ⟨after, last, rest, isLast, free⟩ := induction isNext started (by omega)
          exact ⟨after, last, leads.trans rest, isLast, free⟩

end Driving

/-! ## Draining a process -/

theorem idle_iff {state : State} {process count : Nat} :
    state.idle process count = true ↔ ∀ index < count, ∀ ticket ∈ state.tickets[index]?,
      ticket.process = process → ticket.stage.busy = false := by
  simp only [State.idle, List.all_eq_true, List.mem_iff_getElem?, List.getElem?_take]
  constructor
  · intro idle index below ticket found own
    have free := idle ticket ⟨index, by rw [if_pos below]; exact found⟩
    simpa [own] using free
  · rintro idle ticket ⟨index, found⟩
    split at found
    · rename_i below
      have free := idle index below ticket found
      by_cases own : ticket.process = process <;> simp [own, free]
    · cases found

/-- Every process can deal with its first tickets without changing the table or the later ones. -/
theorem drain (state : State) (process count : Nat) :
    ∃ after, (system fleet).Reaches state after ∧ after.now = state.now ∧
      after.table = state.table ∧ after.idle process count = true ∧
      ∀ later, count ≤ later → after.tickets[later]? = state.tickets[later]? := by
  induction count with
  | zero =>
      exact ⟨state, System.Reaches.refl _ _, rfl, rfl, idle_iff.mpr (fun _ below => by cases below),
        fun _ _ => rfl⟩
  | succ count induction =>
      obtain ⟨middle, reaches, now, table, idle, kept⟩ := induction
      have earlier := idle_iff.mp idle
      by_cases free : ∀ ticket ∈ middle.tickets[count]?, ticket.process = process →
          ticket.stage.busy = false
      · refine ⟨middle, reaches, now, table, idle_iff.mpr ?_,
          fun later above => kept later (by omega)⟩
        intro index below
        rcases Nat.lt_succ_iff_lt_or_eq.mp below with before | rfl
        · exact earlier index before
        · exact free
      · push Not at free
        obtain ⟨ticket, found, own, -⟩ := free
        obtain ⟨after, last, leads, isLast, ended⟩ := leads_end found (fun _ => own ▸ idle)
        refine ⟨after, reaches.trans leads.reaches, leads.now.trans now, leads.table.trans table,
          idle_iff.mpr ?_, ?_⟩
        · intro index below
          rcases Nat.lt_succ_iff_lt_or_eq.mp below with before | rfl
          · rw [leads.others index (Nat.ne_of_lt before)]
            exact earlier index before
          · intro other isOther _
            obtain rfl := Option.some.inj (isLast.symm.trans isOther)
            exact ended
        · intro later above
          rw [leads.others later (by omega)]
          exact kept later (by omega)

/-! ## Tickets that can release their row -/

/-- The next run of a row can be computed at any time. -/
def Recurs (fleet : Fleet) (row : JobRow) : Prop :=
  row.oneOff = false ∧ ∀ now, ∃ nextRunAt,
    computeNextRun fleet.library fleet.moment now row.repeatInterval row.timezone = .ok nextRunAt

/-- The timestamp helper can look for a context in the data of a job. -/
def Readable (fleet : Fleet) (data : Json) : Prop := fleet.package = .prisma → data ≠ .null

theorem help_of_readable {ticket : Ticket} (readable : Readable fleet ticket.data) :
    ticket.help fleet = { stage := .lookingUp } := by
  rcases Ticket.help_cases with same | ⟨prisma, null, -⟩
  · exact same
  · exact absurd null (readable prisma)

/-- A row that recurs and is queued. -/
def Promising (fleet : Fleet) (row : JobRow) : Prop := Recurs fleet row ∧ row.queued = true

/-- A ticket of the maintenance job releases its row at the latest when it puts the row back.  When
that is refused, the Sequelize scheduler keeps the released row in memory and saves it with the
failure. -/
def Stage.Capable (fleet : Fleet) : Stage → Prop
  | .waiting | .lookingUp => True
  | .starting loaded | .maintaining (some loaded) _ | .finishing loaded => Promising fleet loaded
  | .storing loaded _ => loaded.queued = true
  | .failing loaded => fleet.package = .sequelize ∧ loaded.unsaved.queued = some false
  | _ => False

theorem dispose_eq {row : JobRow} (recurs : Recurs fleet row) (now : Int) (loaded : JobRow) :
    ∃ nextRunAt, Ticket.dispose fleet now loaded row = .storing loaded nextRunAt := by
  obtain ⟨nextRunAt, computed⟩ := recurs.2 now
  exact ⟨nextRunAt, by simp only [Ticket.dispose, recurs.1, computed, Bool.false_eq_true, if_false]⟩

theorem capable_finish {loaded : JobRow} (promising : Promising fleet loaded) (now : Int) :
    (Ticket.finish fleet now (some loaded)).Capable fleet := by
  rw [Ticket.finish]
  split
  · exact promising
  · obtain ⟨nextRunAt, stored⟩ := dispose_eq promising.1 now loaded
    rw [stored]
    exact promising.2

theorem Promising.apply {row : JobRow} {update : RowUpdate} (promising : Promising fleet row)
    (kept : update.queued = none) : Promising fleet (update.apply row) := by
  refine ⟨promising.1, ?_⟩
  rw [RowUpdate.apply_queued, kept]
  exact promising.2

theorem Promising.saved {row : JobRow} (promising : Promising fleet row) (now : Int) :
    Promising fleet (fleet.saved row { acceptedAt := some now }) := by
  rw [Fleet.saved]
  split
  · exact promising
  · exact promising.apply rfl

/-- Finishing a row that was loaded as queued releases it. -/
theorem columns_finished {loaded : JobRow} (queued : loaded.queued = true) (now : Int)
    (nextRunAt : Option Int) :
    (fleet.columns { values := loaded } (finished now nextRunAt)).queued = some false := by
  rw [columns]
  split
  · rfl
  · simp [JobInstance.assign, assigned, finished, queued]

/-- A column that waits to be saved is saved with the next update, unless that assigns another
value. -/
theorem columns_unsaved {loaded : JobInstance} {change : RowUpdate}
    (sequelize : fleet.package = .sequelize) (unsaved : loaded.unsaved.queued = some false)
    (kept : change.queued = none ∨ change.queued = some false) :
    (fleet.columns loaded change).queued = some false := by
  simp only [columns, sequelize, JobInstance.assign, assigned]
  rcases kept with kept | kept <;> rw [kept] <;> simp [unsaved]

theorem update_of_lookUp {table : JobTable} {row : JobRow}
    (present : fleet.lookUp table id = some row)
    (loaded : JobInstance) (change : RowUpdate) :
    fleet.update table id loaded change =
      some (.write (fleet.addresses id) (fleet.columns loaded change)) := by
  rw [Fleet.update, if_neg]
  rintro ⟨-, missing⟩
  rw [present] at missing
  cases missing

/-- A ticket of the maintenance job and the queued row of its job. -/
structure Pair (fleet : Fleet) (state : State) (index : Nat) (ticket : Ticket) (row : JobRow) :
    Prop where
  found : state.tickets[index]? = some ticket
  name : ticket.name = MAINTENANCE_JOB_NAME
  readable : Readable fleet ticket.data
  present : fleet.lookUp state.table ticket.job = some row
  promising : Promising fleet row

section Returning

variable {state : State} {index : Nat} {ticket : Ticket} {row : JobRow}

theorem Pair.find (pair : Pair fleet state index ticket row) :
    state.table.find ticket.job = some row ∧ fleet.addresses ticket.job row = true :=
  Option.filter_eq_some_iff.mp pair.present

/-- A ticket that writes that its row is not queued any more releases it. -/
theorem Pair.released (pair : Pair fleet state index ticket row) {update : RowUpdate}
    {success : Bool} (answered : ticket.answer fleet state.now state.table (.done 0) =
      some (Ticket.settle success (.write (fleet.addresses ticket.job) update)))
    (released : update.queued = some false) : CanReturn fleet ticket.job state := by
  refine ⟨_, System.Reaches.single (step_answer pair.found (by rintro ⟨⟩) answered),
    update.apply row, ?_, ?_⟩
  · change (Statement.apply state.table (.write _ update)).find ticket.job = some _
    rw [Statement.find_apply, pair.find.1]
    simp only [Option.bind_some, Statement.onRow, pair.find.2, if_true]
  · rw [RowUpdate.apply_queued, released]
    rfl

theorem Pair.storing (pair : Pair fleet state index ticket row) {loaded : JobRow}
    {nextRunAt : Option Int} (stage : ticket.stage = .storing loaded nextRunAt)
    (queued : loaded.queued = true) : CanReturn fleet ticket.job state := by
  have answered : ticket.answer fleet state.now state.table (.done 0) =
      some (Ticket.settle true (.write (fleet.addresses ticket.job)
        (fleet.columns { values := loaded } (finished state.now nextRunAt)))) := by
    simp only [Ticket.answer, Ticket.answered, stage, update_of_lookUp pair.present]
  exact pair.released answered (columns_finished queued state.now nextRunAt)

theorem Pair.failing (pair : Pair fleet state index ticket row) {loaded : JobInstance}
    (stage : ticket.stage = .failing loaded) (sequelize : fleet.package = .sequelize)
    (unsaved : loaded.unsaved.queued = some false) : CanReturn fleet ticket.job state := by
  have answered : ticket.answer fleet state.now state.table (.done 0) =
      some (Ticket.settle false (.write (fleet.addresses ticket.job) (fleet.columns loaded
        (if fleet.retries loaded.values then retried state.now 0 loaded.values
          else failed state.now loaded.values)))) := by
    simp only [Ticket.answer, Ticket.answered, stage, sequelize, Nat.zero_le, if_true,
      update_of_lookUp pair.present, Option.map_some]
  refine pair.released answered (columns_unsaved sequelize unsaved ?_)
  split
  · exact Or.inr rfl
  · exact Or.inl rfl

/-- A ticket that has been led further still belongs to its row. -/
theorem Pair.lead (pair : Pair fleet state index ticket row) {after : State} {stage : Stage}
    (leads : Leads fleet index state after)
    (next : after.tickets[index]? = some { ticket with stage := stage }) :
    Pair fleet after index { ticket with stage := stage } row where
  found := next
  name := pair.name
  readable := pair.readable
  present := by rw [leads.table]; exact pair.present
  promising := pair.promising

/-- An answer that changes no row leads a ticket further. -/
theorem Pair.answer (pair : Pair fleet state index ticket row) {stage : Stage} {deeds : List Deed}
    {choice : Nat} (answered : ticket.answer fleet state.now state.table (.done choice) =
      some ⟨stage, .read, deeds⟩)
    (returns : ∀ {after}, Pair fleet after index { ticket with stage := stage } row →
      CanReturn fleet ticket.job after) : CanReturn fleet ticket.job state := by
  have leads := leads_answer pair.found (by rintro ⟨⟩) answered rfl
  exact CanReturn.of_reaches leads.reaches (returns (pair.lead leads (advance_ticket pair.found)))

theorem Pair.finishing (pair : Pair fleet state index ticket row) {loaded : JobRow}
    (stage : ticket.stage = .finishing loaded) (queued : loaded.queued = true) :
    CanReturn fleet ticket.job state := by
  obtain ⟨nextRunAt, stored⟩ := dispose_eq pair.promising.1 state.now loaded
  have answered : ticket.answer fleet state.now state.table (.done 0) =
      some { stage := .storing loaded nextRunAt } := by
    simp only [Ticket.answer, Ticket.answered, stage, pair.present, stored]
  exact pair.answer answered fun pair => pair.storing rfl queued

theorem Pair.maintaining (pair : Pair fleet state index ticket row) {loaded : JobRow}
    {progress : Progress} (stage : ticket.stage = .maintaining (some loaded) progress)
    (promising : Promising fleet loaded) : CanReturn fleet ticket.job state := by
  obtain ⟨after, leads, next⟩ : ∃ after, Leads fleet index state after ∧ _ :=
    leads_finish pair.found stage
  have pair := pair.lead leads next
  refine CanReturn.of_reaches leads.reaches ?_
  cases package : fleet.package with
  | prisma =>
      have stage : Ticket.finish fleet state.now (some loaded) = .finishing loaded := by
        simp only [Ticket.finish, package]
      exact pair.finishing stage promising.2
  | sequelize =>
      obtain ⟨nextRunAt, stored⟩ := dispose_eq promising.1 state.now loaded
      have stage : Ticket.finish fleet state.now (some loaded) = .storing loaded nextRunAt := by
        simp only [Ticket.finish, package, stored]
      exact pair.storing stage promising.2

theorem Pair.starting (pair : Pair fleet state index ticket row) {loaded : JobRow}
    (stage : ticket.stage = .starting loaded) (promising : Promising fleet loaded) :
    CanReturn fleet ticket.job state := by
  let accepted : RowUpdate := { acceptedAt := some state.now }
  let columns := fleet.columns { values := loaded } accepted
  let outcome := ticket.execute (some (fleet.saved loaded accepted))
    (.write (fleet.addresses ticket.job) columns)
  have answered : ticket.answer fleet state.now state.table (.done 0) = some outcome := by
    simp only [Ticket.answer, Ticket.answered, stage, update_of_lookUp pair.present]
    rfl
  have executes : outcome.stage = .maintaining (some (fleet.saved loaded accepted)) .pending := by
    simp only [outcome, Ticket.execute, pair.name, if_true]
  have following : Pair fleet (state.advance index ticket (.done 0) outcome) index
      (ticket.advanced (.done 0) outcome.stage) (columns.apply row) :=
    ⟨advance_ticket pair.found, pair.name, pair.readable, lookUp_write pair.present,
      pair.promising.apply (columns_accepted loaded)⟩
  exact CanReturn.of_reaches
    (System.Reaches.single (step_answer pair.found (by rintro ⟨⟩) answered))
    (following.maintaining executes (promising.saved state.now))

theorem Pair.lookingUp (pair : Pair fleet state index ticket row)
    (stage : ticket.stage = .lookingUp) : CanReturn fleet ticket.job state := by
  have answered : ticket.answer fleet state.now state.table (.done 0) =
      some { stage := .starting row } := by
    simp only [Ticket.answer, Ticket.answered, stage, pair.present]
  exact pair.answer answered fun following => following.starting rfl pair.promising

theorem Pair.waiting (pair : Pair fleet state index ticket row)
    (stage : ticket.stage = .waiting) : CanReturn fleet ticket.job state := by
  obtain ⟨middle, reaches, now, table, idle, kept⟩ :
      ∃ middle, (system fleet).Reaches state middle ∧ _ := drain state ticket.process index
  have found : middle.tickets[index]? = some ticket := (kept index le_rfl).trans pair.found
  have begun : ticket.answer fleet middle.now middle.table .begun = some { stage := .lookingUp } :=
    Ticket.answer_begun.mpr
      ⟨stage, by rw [Ticket.launch, if_pos pair.name, help_of_readable pair.readable]⟩
  have leads := leads_answer found (fun _ => idle) begun rfl
  have present : Pair fleet middle index ticket row :=
    ⟨found, pair.name, pair.readable, by rw [table]; exact pair.present, pair.promising⟩
  refine CanReturn.of_reaches (reaches.trans leads.reaches) ?_
  exact (present.lead leads (advance_ticket found)).lookingUp rfl

/-- A capable ticket releases the row of the maintenance job if it is answered favourably. -/
theorem Pair.returns (pair : Pair fleet state index ticket row)
    (capable : ticket.stage.Capable fleet) : CanReturn fleet ticket.job state := by
  rcases stage : ticket.stage with _ | _ | _ | loaded | loaded | ⟨_ | loaded, progress⟩ | loaded |
    loaded | ⟨loaded, nextRunAt⟩ | loaded | found | found | _
  all_goals rw [stage] at capable
  case waiting => exact pair.waiting stage
  case lookingUp => exact pair.lookingUp stage
  case starting => exact pair.starting stage capable
  case maintaining.some => exact pair.maintaining stage capable
  case finishing => exact pair.finishing stage capable.2
  case storing => exact pair.storing stage capable
  case failing => exact pair.failing stage capable.1 capable.2
  all_goals cases capable

end Returning

/-! ## Statements never mark a row as queued -/

/-- A statement marks no row as queued. -/
def Statement.Modest : Statement → Prop
  | .write _ update => update.queued ≠ some true
  | .read | .delete _ => True

/-- A failure does not save that its row is queued. -/
def Stage.Modest : Stage → Prop
  | .failing loaded => loaded.unsaved.queued ≠ some true
  | _ => True

theorem Statement.Modest.onRow {statement : Statement} (modest : statement.Modest)
    {row after : JobRow} (becomes : statement.onRow row = some after)
    (queued : after.queued = true) : row.queued = true := by
  cases statement with
  | read =>
      obtain rfl := Option.some.inj becomes
      exact queued
  | write condition update =>
      obtain rfl := Option.some.inj becomes
      split at queued
      · rw [RowUpdate.apply_queued] at queued
        cases assigned : update.queued with
        | none => rwa [assigned] at queued
        | some value =>
            rw [assigned] at queued
            exact absurd (assigned.trans (congrArg some queued)) modest
      · exact queued
  | delete condition =>
      simp only [Statement.onRow] at becomes
      split at becomes
      · cases becomes
      · obtain rfl := Option.some.inj becomes
        exact queued

section Modesty

variable {now : Int} {table : JobTable} {ticket : Ticket} {answer : Answer} {outcome : Outcome}

theorem columns_modest {loaded : JobInstance} {change : RowUpdate}
    (modest : change.queued ≠ some true) (unsaved : loaded.unsaved.queued ≠ some true) :
    (fleet.columns loaded change).queued ≠ some true := by
  rw [columns]
  split
  · exact modest
  · simp only [JobInstance.assign, assigned]
    split
    · exact unsaved
    · exact modest

theorem statement_modest (progress : Progress) (choice : Nat) :
    (progress.statement fleet now choice).Modest := by
  have reset : ∀ resets : Resets,
      (resets.jobs[choice]?.elim Statement.read fleet.resetStatement).Modest := by
    intro resets
    cases resets.jobs[choice]? with
    | none => trivial
    | some reset =>
        refine columns_modest ?_ (by rintro ⟨⟩)
        cases fleet.package <;> rintro ⟨⟩
  have restart : (fleet.package.restartBlocked now).queued ≠ some true := by
    cases fleet.package <;> rintro ⟨⟩
  cases progress with
  | safeBlocked =>
      simp only [Progress.statement]
      split
      · trivial
      · exact restart
  | restartBlocked ids => exact restart
  | safeLaggy =>
      simp only [Progress.statement]
      split
      · trivial
      · rintro ⟨⟩
  | restartLaggy ids => rintro ⟨⟩
  | resetBlocked resets => exact reset resets
  | resetLaggy resets notifyJobs => exact reset resets
  | pending | riskyBlocked | otherLaggy => trivial

theorem dispose_modest (loaded row : JobRow) :
    (Ticket.dispose fleet now loaded row).Modest :=
  Ticket.dispose_induction (motive := Stage.Modest) trivial (fun _ => trivial) (by rintro ⟨⟩)

theorem finish_modest (loaded : Option JobRow) : (Ticket.finish fleet now loaded).Modest :=
  Ticket.finish_induction (motive := Stage.Modest) (fun _ => trivial) (fun _ _ => trivial)
    (fun _ _ => trivial) (fun _ _ _ => trivial) (fun _ _ => by rintro ⟨⟩)

theorem execute_modest (loaded : Option JobRow) (statement : Statement) :
    (ticket.execute loaded statement).stage.Modest :=
  Ticket.execute_induction (motive := Stage.Modest) (fun _ => trivial) trivial

theorem proceed_modest (loaded : Option JobRow) (statement : Statement)
    (next : Option Progress × List Notice) :
    (Ticket.proceed fleet now loaded statement next).stage.Modest := by
  rw [Ticket.proceed]
  cases next.1 with
  | none => exact finish_modest loaded
  | some progress => trivial

theorem answer_modest (modest : ticket.stage.Modest)
    (answered : ticket.answer fleet now table answer = some outcome) :
    outcome.stage.Modest ∧ outcome.statement.Modest := by
  cases Ticket.reaction answered with
  | launched stage =>
      rw [Ticket.launch_statement]
      exact ⟨Ticket.launch_induction (motive := Stage.Modest) trivial trivial trivial
        fun _ => execute_modest none .read, trivial⟩
  | consumed stage =>
      rw [Ticket.consume_statement]
      exact ⟨Ticket.consume_induction (motive := Stage.Modest) trivial
        (execute_modest none .read), trivial⟩
  | @succeeded loaded stage => exact ⟨finish_modest loaded, trivial⟩
  | @failed loaded stage =>
      cases loaded with
      | none => exact ⟨trivial, trivial⟩
      | some loaded => exact ⟨by rintro ⟨⟩, trivial⟩
  | unwrapped stage => exact ⟨execute_modest none .read, trivial⟩
  | accepted stage =>
      exact ⟨execute_modest _ _, columns_modest (by rintro ⟨⟩) (by rintro ⟨⟩)⟩
  | @continued choice loaded progress next stage continues =>
      exact ⟨proceed_modest loaded _ next, statement_modest progress choice⟩
  | @interrupted choice loaded progress next stage continues =>
      exact ⟨proceed_modest loaded .read next, trivial⟩
  | @disposed choice loaded row stage present => exact ⟨dispose_modest loaded row, trivial⟩
  | deleted | unstored | unfinished => exact ⟨by rintro ⟨⟩, trivial⟩
  | stored | requeued => exact ⟨trivial, columns_modest (by rintro ⟨⟩) (by rintro ⟨⟩)⟩
  | unsaved stage sequelize =>
      refine ⟨?_, trivial⟩
      simp only [Stage.Modest, JobInstance.assign, assigned]
      split <;> rintro ⟨⟩
  | reread stage prisma present =>
      refine ⟨?_, trivial⟩
      dsimp only
      split <;> trivial
  | saved stage sequelize =>
      rw [stage] at modest
      refine ⟨trivial, columns_modest ?_ modest⟩
      split <;> rintro ⟨⟩
  | counted stage => exact ⟨trivial, by rintro ⟨⟩⟩
  | _ => exact ⟨trivial, trivial⟩

end Modesty

/-! ## Losing a ticket -/

/-- Whether a ticket is lost when the database refuses its statement.  A pass goes on or ends, and
the Sequelize scheduler saves with the failure that the row is released. -/
def Ticket.perishable (fleet : Fleet) (ticket : Ticket) : Bool :=
  match ticket.stage with
  | .maintaining _ _ => false
  | .storing _ _ => fleet.package = .prisma
  | stage => stage.underway

/-- Whether an event loses a ticket of a job whose row is queued: its process crashes, or the
database refuses its statement. -/
def State.loses (fleet : Fleet) (state : State) (id : String) (event : Event) : Bool :=
  (state.table.find id).any (fun row => row.queued) &&
    match event with
    | .crash process => state.tickets.any fun ticket =>
        ticket.job = id && ticket.process = process && ticket.stage.underway
    | .act index (.refused _) => (state.tickets[index]?).any fun ticket =>
        ticket.job = id && ticket.perishable fleet
    | _ => false

section Capability

variable {now : Int} {table : JobTable} {ticket : Ticket} {answer : Answer} {outcome : Outcome}
  {row : JobRow}

theorem capable_proceed {loaded : JobRow} (promising : Promising fleet loaded)
    (statement : Statement) (next : Option Progress × List Notice) :
    (Ticket.proceed fleet now (some loaded) statement next).stage.Capable fleet := by
  rw [Ticket.proceed]
  cases next.1 with
  | none => exact capable_finish promising now
  | some progress => exact promising

/-- A ticket stays capable until it releases its row, unless it is lost. -/
theorem capable_answer (capable : ticket.stage.Capable fleet)
    (name : ticket.name = MAINTENANCE_JOB_NAME) (readable : Readable fleet ticket.data)
    (present : fleet.lookUp table ticket.job = some row) (promising : Promising fleet row)
    (lasting : ∀ choice, answer = .refused choice → ticket.perishable fleet = false)
    (answered : ticket.answer fleet now table answer = some outcome) :
    outcome.stage.Capable fleet ∨ ∀ after ∈ outcome.statement.onRow row, after.queued = false := by
  have releases : ∀ {update : RowUpdate}, update.queued = some false →
      ∀ after ∈ (Statement.write (fleet.addresses ticket.job) update).onRow row,
        after.queued = false := by
    intro update released after becomes
    obtain rfl := Option.some.inj becomes
    rw [if_pos (Option.filter_eq_some_iff.mp present).2, RowUpdate.apply_queued, released]
    rfl
  have perishes : ∀ {choice}, answer = .refused choice → ticket.perishable fleet = true → False :=
    fun refused perishable => Bool.false_ne_true ((lasting _ refused).symm.trans perishable)
  cases Ticket.reaction answered with
  | launched stage =>
      rw [Ticket.launch, if_pos name, help_of_readable readable]
      exact Or.inl trivial
  | found stage located =>
      obtain rfl := Option.some.inj (located.symm.trans present)
      exact Or.inl promising
  | accepted stage =>
      rw [stage] at capable
      left
      simp only [Ticket.execute, name, if_true]
      exact Promising.saved capable now
  | @continued choice loaded progress next stage continues =>
      rw [stage] at capable
      cases loaded with
      | none => cases capable
      | some loaded => exact Or.inl (capable_proceed capable _ next)
  | @interrupted choice loaded progress next stage continues =>
      rw [stage] at capable
      cases loaded with
      | none => cases capable
      | some loaded => exact Or.inl (capable_proceed capable .read next)
  | @disposed choice loaded found stage located =>
      obtain rfl := Option.some.inj (located.symm.trans present)
      obtain ⟨nextRunAt, stores⟩ := dispose_eq promising.1 now loaded
      rw [stage] at capable
      left
      simp only [stores]
      exact capable.2
  | @stored choice loaded nextRunAt stage =>
      rw [stage] at capable
      exact Or.inr (releases (columns_finished capable now nextRunAt))
  | saved stage sequelize =>
      rw [stage] at capable
      refine Or.inr (releases (columns_unsaved sequelize capable.2 ?_))
      split
      · exact Or.inr rfl
      · exact Or.inl rfl
  | @unsaved choice loaded nextRunAt stage sequelize =>
      rw [stage] at capable
      have queued : loaded.queued = true := capable
      exact Or.inl ⟨sequelize, by simp [JobInstance.assign, assigned, finished, queued]⟩
  | reread stage prisma | forgotten stage prisma =>
      rw [stage] at capable
      have sequelize := capable.1
      rw [prisma] at sequelize
      cases sequelize
  | unwrapped | unaccepted | vanished | unstored | unretried =>
      rename_i missing
      rw [present] at missing
      cases missing
  | thrown stage =>
      refine (perishes rfl ?_).elim
      rcases stage with stage | ⟨loaded, stage⟩ <;> simp [Ticket.perishable, stage, Stage.underway]
  | unfinished stage =>
      refine (perishes rfl ?_).elim
      rcases stage with stage | stage | ⟨prisma, nextRunAt, stage⟩
      · simp [Ticket.perishable, stage, Stage.underway]
      · simp [Ticket.perishable, stage, Stage.underway]
      · simp [Ticket.perishable, stage, prisma]
  | uncounted stage =>
      rcases stage with ⟨loaded, stage⟩ | ⟨row, stage⟩ | ⟨row, stage⟩
      · exact (perishes rfl (by simp [Ticket.perishable, stage, Stage.underway])).elim
      · exact (perishes rfl (by simp [Ticket.perishable, stage, Stage.underway])).elim
      · rw [stage] at capable
        cases capable
  | _ =>
      rw [‹ticket.stage = _›] at capable
      cases capable

end Capability

/-! ## Every run in which no ticket is lost -/

/-- As long as the row of the maintenance job is queued, a capable ticket of the job is left. -/
structure Returnable (fleet : Fleet) (id : String) (state : State) : Prop where
  modest : ∀ ticket ∈ state.tickets, ticket.stage.Modest
  recurs : ∀ row ∈ state.table.find id, row.name = MAINTENANCE_JOB_NAME →
    Recurs fleet row ∧ Readable fleet row.data
  capable : ∀ row ∈ state.table.find id, row.name = MAINTENANCE_JOB_NAME → row.queued = true →
    fleet.addresses id row = true ∧ ∃ ticket ∈ state.tickets, ticket.job = id ∧
      ticket.name = MAINTENANCE_JOB_NAME ∧ Readable fleet ticket.data ∧
        ticket.stage.Capable fleet

/-- A capable ticket can put the row of the maintenance job back. -/
theorem Returnable.returns {state : State} (returnable : Returnable fleet id state) {row : JobRow}
    (found : state.table.find id = some row) (name : row.name = MAINTENANCE_JOB_NAME)
    (queued : row.queued = true) : CanReturn fleet id state := by
  obtain ⟨addressed, ticket, member, rfl, named, readable, capable⟩ :=
    returnable.capable row found name queued
  obtain ⟨index, isTicket⟩ := List.getElem?_of_mem member
  have pair : Pair fleet state index ticket row :=
    { found := isTicket
      name := named
      readable := readable
      present := Option.filter_eq_some_iff.mpr ⟨found, addressed⟩
      promising := ⟨(returnable.recurs row found name).1, queued⟩ }
  exact pair.returns capable

theorem Stage.Capable.underway {stage : Stage} (capable : stage.Capable fleet) :
    stage.underway = true := by
  cases stage <;> first | rfl | cases capable

section Steps

variable {before : State}

/-- A tick that enqueues the maintenance job makes a ticket for it. -/
theorem Returnable.enqueue {process : Nat} {ids : List String} {after : State}
    (returnable : Returnable fleet id before)
    (moved : step fleet before (.enqueue process ids) = some after) :
    Returnable fleet id after := by
  obtain ⟨-, present, rfl⟩ := step_enqueue moved
  refine ⟨?_, ?_, ?_⟩
  · intro ticket member
    rcases List.mem_append.mp member with old | new
    · exact returnable.modest ticket old
    · rw [(State.mem_enqueued new).2.2.1]
      trivial
  · intro row located
    rw [JobTable.find_write] at located
    obtain ⟨earlier, found, rfl⟩ := Option.map_eq_some_iff.mp located
    split <;> exact returnable.recurs earlier found
  · intro row located name queued
    rw [JobTable.find_write] at located
    obtain ⟨earlier, found, rfl⟩ := Option.map_eq_some_iff.mp located
    have same := (JobTable.mem_of_find found).2
    rw [same] at name queued ⊢
    by_cases listed : id ∈ ids
    · rw [if_pos (decide_eq_true listed)] at name ⊢
      obtain ⟨due, isDue, ready⟩ := present id listed
      obtain rfl := Option.some.inj (found.symm.trans isDue)
      have made : (⟨process, id, earlier.name, earlier.data, .waiting⟩ : Ticket) ∈
          before.enqueued process ids :=
        List.mem_filterMap.mpr ⟨id, listed, by rw [found]; rfl⟩
      have readable := (returnable.recurs earlier found name).2
      refine ⟨?_, _, List.mem_append_right _ made, rfl, name, readable, trivial⟩
      have owned : fleet.owns earlier = true := ((Bool.and_eq_true _ _).mp ready).2
      change fleet.addresses id earlier = true
      rw [addresses]
      split
      · exact (Bool.and_eq_true _ _).mpr ⟨decide_eq_true same, owned⟩
      · exact decide_eq_true same
    · rw [if_neg fun selected => listed (of_decide_eq_true selected)] at name queued ⊢
      obtain ⟨addressed, ticket, member, rest⟩ := returnable.capable earlier found name queued
      exact ⟨addressed, ticket, List.mem_append_left _ member, rest⟩

/-- An answer leaves a capable ticket or releases its row, unless the ticket is lost. -/
theorem Returnable.act {index : Nat} {answer : Answer} {after : State}
    (returnable : Returnable fleet id before)
    (lasting : before.loses fleet id (.act index answer) = false)
    (moved : step fleet before (.act index answer) = some after) : Returnable fleet id after := by
  obtain ⟨ticket, outcome, found, -, answered, rfl⟩ := step_act moved
  obtain ⟨stage, statement⟩ :=
    answer_modest (returnable.modest ticket (List.mem_of_getElem? found)) answered
  have located : ∀ {later},
      (before.advance index ticket answer outcome).table.find id = some later →
      ∃ row, before.table.find id = some row ∧ outcome.statement.onRow row = some later := by
    intro later present
    rw [find_advance] at present
    exact Option.bind_eq_some_iff.mp present
  refine ⟨?_, ?_, ?_⟩
  · intro later member
    rcases mem_advance found member with rfl | ⟨position, -, isLater⟩
    · exact stage
    · exact returnable.modest later (List.mem_of_getElem? isLater)
  · intro later present name
    obtain ⟨row, isRow, becomes⟩ := located present
    obtain ⟨update, rfl⟩ := Statement.onRow_apply becomes
    exact returnable.recurs row isRow name
  · intro later present name queued
    obtain ⟨row, isRow, becomes⟩ := located present
    have wasQueued := statement.onRow becomes queued
    obtain ⟨update, rfl⟩ := Statement.onRow_apply becomes
    obtain ⟨addressed, holder, member, own, named, readable, capable⟩ :=
      returnable.capable row isRow name wasQueued
    refine ⟨addressed, ?_⟩
    obtain ⟨position, isHolder⟩ := List.getElem?_of_mem member
    have isLater := isHolder
    by_cases here : position = index
    · -- the capable ticket is the one that is answered
      subst here
      obtain rfl := Option.some.inj (isHolder.symm.trans found)
      subst own
      have kept : ∀ choice, answer = .refused choice → holder.perishable fleet = false := by
        rintro choice rfl
        simpa [State.loses, isRow, wasQueued, found] using lasting
      rcases capable_answer capable named readable
        (Option.filter_eq_some_iff.mpr ⟨isRow, addressed⟩)
        ⟨(returnable.recurs row isRow name).1, wasQueued⟩ kept answered with stays | releases
      · exact ⟨_, List.mem_of_getElem? (advance_ticket found), rfl, named, readable, stays⟩
      · exact absurd (releases _ becomes) (by rw [queued]; rintro ⟨⟩)
    · refine ⟨holder, ?_, own, named, readable, capable⟩
      have kept : (before.advance index ticket answer outcome).tickets[position]? =
          some holder := by
        rw [State.advance, List.getElem?_set_ne (Ne.symm here)]
        exact isHolder
      exact List.mem_of_getElem? kept

/-- A crash leaves a capable ticket unless it loses one. -/
theorem Returnable.crash {process : Nat} (returnable : Returnable fleet id before)
    (lasting : before.loses fleet id (.crash process) = false) :
    Returnable fleet id { before with tickets := before.tickets.map (State.crashed process) } := by
  refine ⟨?_, returnable.recurs, ?_⟩
  · intro later member
    obtain ⟨ticket, old, rfl⟩ := List.mem_map.mp member
    rcases crashed_cases process ticket with same | ⟨-, settled⟩
    · rw [same]
      exact returnable.modest ticket old
    · rw [settled]
      trivial
  · intro row found name queued
    obtain ⟨addressed, ticket, member, own, named, readable, capable⟩ :=
      returnable.capable row found name queued
    refine ⟨addressed, ticket, ?_, own, named, readable, capable⟩
    have kept : State.crashed process ticket = ticket := by
      rcases crashed_cases process ticket with same | ⟨here, -⟩
      · exact same
      · have present : before.table.find id = some row := found
        simp only [State.loses, present, Option.any_some, queued, Bool.true_and,
          List.any_eq_false] at lasting
        exact absurd capable.underway (by simpa [own, here] using lasting ticket member)
    exact kept ▸ List.mem_map_of_mem member

theorem Returnable.create {created : String} {after : State}
    (recurs : Recurs fleet (createdJob before.now created))
    (returnable : Returnable fleet id before)
    (moved : step fleet before (.create created) = some after) : Returnable fleet id after := by
  obtain ⟨fresh, -, rfl⟩ := step_create moved
  have located := JobTable.find_insert (createdJob before.now created) fresh id
  refine ⟨returnable.modest, ?_, ?_⟩
  · intro row found
    rw [located] at found
    split at found
    · obtain rfl := Option.some.inj found
      exact fun _ => ⟨recurs, fun _ => nofun⟩
    · exact returnable.recurs row found
  · intro row found name queued
    rw [located] at found
    split at found
    · obtain rfl := Option.some.inj found
      cases queued
    · exact returnable.capable row found name queued

/-- Every step that loses no ticket keeps the maintenance job returnable. -/
theorem Returnable.step {event : Event} {after : State}
    (recurs : ∀ now created, Recurs fleet (createdJob now created))
    (returnable : Returnable fleet id before) (lasting : before.loses fleet id event = false)
    (moved : step fleet before event = some after) : Returnable fleet id after := by
  cases event with
  | elapse duration =>
      obtain rfl := Option.some.inj moved
      exact ⟨returnable.modest, returnable.recurs, returnable.capable⟩
  | enqueue process ids => exact returnable.enqueue moved
  | act index answer => exact returnable.act lasting moved
  | crash process =>
      obtain rfl := Option.some.inj moved
      exact returnable.crash lasting
  | findFirst =>
      obtain ⟨creating, rfl⟩ := step_findFirst moved
      exact ⟨returnable.modest, returnable.recurs, returnable.capable⟩
  | create created => exact returnable.create (recurs before.now created) moved
  | abandon =>
      obtain ⟨creating, rfl⟩ := step_abandon moved
      exact ⟨returnable.modest, returnable.recurs, returnable.capable⟩

end Steps

/-- The rule of the maintenance job. -/
def MAINTENANCE_RULE : String := "FREQ=MINUTELY;INTERVAL=1"

/-- The maintenance job recurs as it is created if the library can read its rule. -/
theorem recurs_createdJob
    (readable : ∀ now, ∃ rule,
      parsedRule fleet.library fleet.moment now MAINTENANCE_RULE (some "UTC") = .ok rule)
    (now : Int) (created : String) : Recurs fleet (createdJob now created) := by
  refine ⟨rfl, fun instant => ?_⟩
  obtain ⟨rule, parsed⟩ := readable instant
  exact ⟨_, computeNextRun_eq (by decide) parsed⟩

/-- In every run that loses no ticket of the maintenance job while its row is queued, the row can be
released again. -/
theorem returns_unless_lost {now : Int} {table : JobTable} {events : List Event} {final : State}
    {row : JobRow}
    (readable : ∀ now, ∃ rule,
      parsedRule fleet.library fleet.moment now MAINTENANCE_RULE (some "UTC") = .ok rule)
    (rested : ∀ row ∈ table.rows, row.name = MAINTENANCE_JOB_NAME →
      row.queued = false ∧ Recurs fleet row ∧ Readable fleet row.data)
    (lasting : (system fleet).Along (fun state event => state.loses fleet row.id event = false)
      events (State.initial now table))
    (execution : (system fleet).run events (State.initial now table) = some final)
    (member : row ∈ final.table.rows) (name : row.name = MAINTENANCE_JOB_NAME)
    (queued : row.queued = true) : CanReturn fleet row.id final := by
  have initial : Returnable fleet row.id (State.initial now table) :=
    { modest := fun ticket member => by cases member
      recurs := fun row found name => (rested row (JobTable.mem_of_find found).1 name).2
      capable := fun row found name queued => by
        rw [(rested row (JobTable.mem_of_find found).1 name).1] at queued
        cases queued }
  have preserved : ∀ before event after, Returnable fleet row.id before →
      State.loses fleet before row.id event = false →
      (system fleet).step before event = some after → Returnable fleet row.id after :=
    fun _ _ _ returnable lasting moved =>
      returnable.step (recurs_createdJob readable) lasting moved
  have returnable := System.invariant_run preserved initial lasting execution
  exact returnable.returns (JobTable.find_of_mem member) name queued

/-! ## A lost ticket is lost for good -/

/-- Whether a ticket is in a maintenance pass. -/
def Stage.inPass : Stage → Bool
  | .maintaining _ _ => true
  | _ => false

/-- The only row of the maintenance job is queued, and no ticket of the job is left. -/
structure Lost (id : String) (state : State) : Prop where
  held : ∃ row ∈ state.table.find id, row.name = MAINTENANCE_JOB_NAME ∧ row.queued = true
  alone : ∀ row ∈ state.table.rows, row.name = MAINTENANCE_JOB_NAME → row.id = id
  gone : ∀ ticket ∈ state.tickets, ticket.job = id ∨ ticket.name = MAINTENANCE_JOB_NAME →
    ticket.stage = .settled
  noPass : ∀ ticket ∈ state.tickets, ticket.stage.inPass = false
  noCreation : state.creating = 0

section Losing

variable {now : Int} {table : JobTable} {ticket : Ticket} {answer : Answer} {outcome : Outcome}

theorem inPass_execute (other : ticket.name ≠ MAINTENANCE_JOB_NAME) (loaded : Option JobRow)
    (statement : Statement) : (ticket.execute loaded statement).stage.inPass = false :=
  Ticket.execute_induction (motive := fun stage => stage.inPass = false)
    (fun named => absurd named other) rfl

theorem inPass_dispose (loaded row : JobRow) :
    (Ticket.dispose fleet now loaded row).inPass = false :=
  Ticket.dispose_induction (motive := fun stage => stage.inPass = false) rfl (fun _ => rfl) rfl

theorem inPass_finish (loaded : Option JobRow) :
    (Ticket.finish fleet now loaded).inPass = false :=
  Ticket.finish_induction (motive := fun stage => stage.inPass = false) (fun _ => rfl)
    (fun _ _ => rfl) (fun _ _ => rfl) (fun _ _ _ => rfl) (fun _ _ => rfl)

/-- Only tickets of the maintenance job begin a pass. -/
theorem inPass_of_answer (other : ticket.name ≠ MAINTENANCE_JOB_NAME)
    (outside : ticket.stage.inPass = false)
    (answered : ticket.answer fleet now table answer = some outcome) :
    outcome.stage.inPass = false := by
  cases Ticket.reaction answered with
  | launched stage =>
      exact Ticket.launch_induction (motive := fun stage => stage.inPass = false) rfl rfl rfl
        fun _ => inPass_execute other none .read
  | consumed stage =>
      exact Ticket.consume_induction (motive := fun stage => stage.inPass = false) rfl
        (inPass_execute other none .read)
  | @succeeded loaded stage => exact inPass_finish loaded
  | @failed loaded stage => cases loaded <;> rfl
  | unwrapped stage => exact inPass_execute other none .read
  | accepted stage => exact inPass_execute other _ _
  | continued stage continues | interrupted stage continues =>
      rw [stage] at outside
      cases outside
  | @disposed choice loaded row stage present => exact inPass_dispose loaded row
  | reread stage prisma present =>
      dsimp only
      split <;> rfl
  | _ => rfl

theorem maintains_outside (outside : ticket.stage.inPass = false) (row : JobRow) :
    ticket.maintains fleet now answer row = false := by
  cases stage : ticket.stage with
  | maintaining loaded progress => rw [stage] at outside; cases outside
  | _ => simp only [Ticket.maintains, stage]

/-- A ticket that is settled is not answered any more. -/
theorem not_settled_of_answer (answered : ticket.answer fleet now table answer = some outcome) :
    ticket.stage ≠ .settled := by
  intro settled
  cases answer <;>
    simp only [Ticket.answer, Ticket.answered, Ticket.refused, settled] at answered <;>
    cases answered

/-- The other jobs do not touch the row of the maintenance job. -/
theorem Lost.act {before after : State} {index : Nat} (lost : Lost id before)
    (moved : step fleet before (.act index answer) = some after) : Lost id after := by
  obtain ⟨ticket, outcome, found, -, answered, rfl⟩ := step_act moved
  have member := List.mem_of_getElem? found
  have active := not_settled_of_answer answered
  have other : ticket.job ≠ id := fun own => active (lost.gone ticket member (Or.inl own))
  have unnamed : ticket.name ≠ MAINTENANCE_JOB_NAME := fun named =>
    active (lost.gone ticket member (Or.inr named))
  refine ⟨?_, ?_, ?_, ?_, lost.noCreation⟩
  · obtain ⟨row, present, held⟩ := lost.held
    refine ⟨row, ?_, held⟩
    have kept := Ticket.onRow_of_other answered
      (fun same => other (same.symm.trans (JobTable.mem_of_find present).2))
      (maintains_outside (lost.noPass ticket member) row)
    exact (find_advance id).trans (by rw [Option.mem_def.mp present, Option.bind_some, kept])
  · intro later present name
    obtain ⟨row, isRow, update, rfl⟩ := Statement.mem_apply present
    exact lost.alone row isRow name
  · intro later present
    rcases mem_advance found present with rfl | ⟨position, -, isLater⟩
    · rintro (own | named)
      · exact absurd own other
      · exact absurd named unnamed
    · exact lost.gone later (List.mem_of_getElem? isLater)
  · intro later present
    rcases mem_advance found present with rfl | ⟨position, -, isLater⟩
    · exact inPass_of_answer unnamed (lost.noPass ticket member) answered
    · exact lost.noPass later (List.mem_of_getElem? isLater)

/-- A tick does not enqueue the row again, since it is queued. -/
theorem Lost.enqueue {before after : State} {process : Nat} {ids : List String}
    (lost : Lost id before) (moved : step fleet before (.enqueue process ids) = some after) :
    Lost id after := by
  obtain ⟨-, present, rfl⟩ := step_enqueue moved
  obtain ⟨row, found, name, queued⟩ := lost.held
  have unlisted : id ∉ ids := by
    intro listed
    obtain ⟨due, isDue, ready⟩ := present id listed
    obtain rfl := Option.some.inj (found.symm.trans isDue)
    simp [enqueueable, Scheduler.due, queued] at ready
  refine ⟨⟨row, ?_, name, queued⟩, ?_, ?_, ?_, lost.noCreation⟩
  · change (before.table.write _ _).find id = some row
    rw [JobTable.find_write, Option.mem_def.mp found, Option.map_some,
      (JobTable.mem_of_find found).2, if_neg fun selected => unlisted (of_decide_eq_true selected)]
  · intro later member
    obtain ⟨earlier, isEarlier, rfl⟩ := List.mem_map.mp member
    split <;> exact lost.alone earlier isEarlier
  · intro ticket member own
    rcases List.mem_append.mp member with old | new
    · exact lost.gone ticket old own
    · obtain ⟨-, listed, -, other, isOther, named⟩ := State.mem_enqueued new
      have same : ticket.job = id := by
        rcases own with own | own
        · exact own
        · obtain ⟨isMember, isJob⟩ := JobTable.mem_of_find isOther
          exact isJob.symm.trans (lost.alone other isMember (named.1.symm.trans own))
      exact absurd (same ▸ listed) unlisted
  · intro ticket member
    rcases List.mem_append.mp member with old | new
    · exact lost.noPass ticket old
    · rw [(State.mem_enqueued new).2.2.1]
      rfl

/-- Whatever happens, a row of the maintenance job without a ticket stays queued. -/
theorem Lost.step {before after : State} {event : Event} (lost : Lost id before)
    (moved : step fleet before event = some after) : Lost id after := by
  cases event with
  | elapse duration =>
      obtain rfl := Option.some.inj moved
      exact ⟨lost.held, lost.alone, lost.gone, lost.noPass, lost.noCreation⟩
  | enqueue process ids => exact lost.enqueue moved
  | act index answer => exact lost.act moved
  | crash process =>
      obtain rfl := Option.some.inj moved
      refine ⟨lost.held, lost.alone, ?_, ?_, lost.noCreation⟩
      · intro later member own
        obtain ⟨ticket, old, rfl⟩ := List.mem_map.mp member
        rcases crashed_cases process ticket with same | ⟨-, settled⟩
        · rw [same] at own ⊢
          exact lost.gone ticket old own
        · rw [settled]
      · intro later member
        obtain ⟨ticket, old, rfl⟩ := List.mem_map.mp member
        rcases crashed_cases process ticket with same | ⟨-, settled⟩
        · rw [same]
          exact lost.noPass ticket old
        · rw [settled]
          rfl
  | findFirst =>
      obtain ⟨row, found, name, -⟩ := lost.held
      have listed : row ∈ before.table.select fun row => row.name = MAINTENANCE_JOB_NAME :=
        JobTable.mem_select.mpr ⟨(JobTable.mem_of_find found).1, decide_eq_true name⟩
      have nonempty : ¬ (before.table.select
          fun row => row.name = MAINTENANCE_JOB_NAME).isEmpty = true := by
        rw [List.isEmpty_iff]
        exact List.ne_nil_of_mem listed
      simp only [Fleet.step, nonempty] at moved
      obtain rfl := Option.some.inj moved
      exact lost
  | create created =>
      simp only [Fleet.step, lost.noCreation, Nat.lt_irrefl, false_and, if_false] at moved
      cases moved
  | abandon =>
      simp only [Fleet.step, lost.noCreation, Nat.lt_irrefl, if_false] at moved
      cases moved

/-- The row of the maintenance job cannot return when its ticket is lost and there is no other. -/
theorem Lost.not_canReturn {state : State} (lost : Lost id state) : ¬ CanReturn fleet id state := by
  rintro ⟨final, ⟨events, execution⟩, row, found, released⟩
  have preserved : ∀ before event after, Lost id before →
      (system fleet).step before event = some after → Lost id after :=
    fun _ _ _ lost moved => lost.step moved
  obtain ⟨held, isHeld, -, queued⟩ := (System.invariant_of_run preserved lost execution).held
  obtain rfl := Option.some.inj (isHeld.symm.trans found)
  exact Bool.false_ne_true (released.symm.trans queued)

end Losing

/-! ## The first maintenance job of a new table -/

/-- A library that reads the rule of the maintenance job within the exact second. -/
def minutelyRules : RRuleLibrary where
  RRuleSet := Unit
  parse text :=
    if text = "DTSTART;TZID=UTC:20240124T160000\nRRULE:" ++ MAINTENANCE_RULE then .ok ()
    else .error "Invalid rrule"
  between _ first last _ :=
    (List.range ((last - first) / minutes 1 + 1).toNat).map fun count => first + minutes count

theorem parsedRule_minutely (now : Int) :
    parsedRule minutelyRules universalTime now MAINTENANCE_RULE (some "UTC") = .ok () := by
  have plain : MAINTENANCE_RULE.startsWith "DTSTART" = false := by decide +kernel
  by_cases exact : now = exactSecond
  · subst exact
    simp only [parsedRule, getValidRule, plain]
    rfl
  · simp only [parsedRule, getValidRule, plain, universalTime, exact, if_false]
    rfl

/-- No other jobs. -/
def loneSettings : Settings where
  jobsSafeToRestart := []
  jobsRiskyToRestart := []
  jobsCustomRestart := []
  tasks := []
  wrapped := []

def loneFleet (package : Package) : Fleet where
  library := minutelyRules
  moment := universalTime
  package := package
  settings := loneSettings

/-- A process creates the maintenance job, and its first tick enqueues it. -/
def loneEnqueued : List Event := [.findFirst, .create "1", .elapse 1, .enqueue 0 ["1"]]

/-- The row of the maintenance job as it is enqueued. -/
def loneRow : JobRow :=
  { createdJob exactSecond "1" with queued := true, lastRunAt := some (exactSecond + 1) }

/-- The process crashes before it comes to the job. -/
def loneLost : State where
  now := exactSecond + 1
  table := ⟨[loneRow], by decide⟩
  tickets := [⟨0, "1", MAINTENANCE_JOB_NAME, .obj [], .settled⟩]
  creating := 0
  log := []

theorem lone_crash (package : Package) :
    (system (loneFleet package)).run (loneEnqueued ++ [.crash 0])
      (State.initial exactSecond JobTable.empty) = some loneLost := by
  cases package <;> rfl

/-- In both packages, a crash between the tick and the maintenance pass leaves the maintenance job
queued for good, although the library reads its rule. -/
theorem lone_check_stays_queued : [Package.prisma, .sequelize].Forall fun package =>
    (∀ now, ∃ rule, parsedRule (loneFleet package).library (loneFleet package).moment now
      MAINTENANCE_RULE (some "UTC") = .ok rule) ∧
    (system (loneFleet package)).run (loneEnqueued ++ [.crash 0])
      (State.initial exactSecond JobTable.empty) = some loneLost ∧
    loneRow ∈ loneLost.table.rows ∧ loneRow.name = MAINTENANCE_JOB_NAME ∧ loneRow.queued = true ∧
    (∀ ticket ∈ loneLost.tickets, ticket.stage = .settled) ∧
    ¬ CanReturn (loneFleet package) loneRow.id loneLost := by
  refine List.forall_iff_forall_mem.mpr fun package _ => ?_
  have lost : Lost loneRow.id loneLost :=
    { held := ⟨loneRow, rfl, rfl, rfl⟩
      alone := by simp [loneLost]
      gone := by simp [loneLost]
      noPass := by simp [loneLost, Stage.inPass]
      noCreation := rfl }
  exact ⟨fun now => ⟨(), parsedRule_minutely now⟩, lone_crash package, List.mem_singleton_self _,
    rfl, rfl, by simp [loneLost], lost.not_canReturn⟩

/-- While the process is about to carry out a pass, the row can return, even if the database refuses
a statement of the pass. -/
theorem lone_check_returns : ∃ final row,
    (system (loneFleet .prisma)).run (loneEnqueued ++ calls 0 ++ [.act 0 (.refused 0)])
      (State.initial exactSecond JobTable.empty) = some final ∧
    row ∈ final.table.rows ∧ row.queued = true ∧ CanReturn (loneFleet .prisma) row.id final := by
  let accepted : JobRow := { loneRow with acceptedAt := some (exactSecond + 1) }
  let final : State :=
    { loneLost with
      table := ⟨[accepted], by decide⟩
      tickets := [⟨0, "1", MAINTENANCE_JOB_NAME, .obj [], .finishing loneRow⟩]
      log := [⟨"1", .called⟩] }
  have execution : (system (loneFleet .prisma)).run
      (loneEnqueued ++ calls 0 ++ [.act 0 (.refused 0)])
      (State.initial exactSecond JobTable.empty) = some final := rfl
  refine ⟨final, accepted, execution, List.mem_singleton_self _, rfl, ?_⟩
  exact returns_unless_lost (fun now => ⟨(), parsedRule_minutely now⟩)
    (fun row member => by cases member) (by decide +kernel) execution
    (List.mem_singleton_self _) rfl rfl

end Steveo.Scheduler.Fleet
