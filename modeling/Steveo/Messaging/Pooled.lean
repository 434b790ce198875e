import Steveo.Library.Lending
import Steveo.Messaging.Stopping
import Steveo.Runtime.Shutdown

/-!
# An SQS instance with its pool and its shutdowns

The runner of an instance, the pool that its handlings borrow from, and every call of `stop` share
the state of one manager.  The pool lends to no more handlings than it has resources, and it has
been drained only once everything has come back.  A message whose body is `null` gets a resource
that it never gives back.
-/

namespace Steveo

namespace Pooled

/-- The parts of an instance that wait for something. -/
structure State where
  runner : Polling.State
  /-- The calls of `stop`. -/
  shutdowns : List Manager.Shutdown

/-- What a call of `stop` waits for happens. -/
inductive Answer
  /-- A second has passed, and the pool has lent so much. -/
  | wake (lent : Nat)
  | drained
  | cleared (fulfilled : Bool)
  | stopped

/-- What can happen to an instance. -/
inductive Event
  | runner (event : Polling.Event)
  /-- Someone calls `stop` while the pool has lent so much. -/
  | stop (lent : Nat)
  | shutdown (index : Nat) (answer : Answer)

/-- The answer as a shutdown sees it that has one pool to drain. -/
def Answer.event : Answer → Manager.Event
  | .wake lent => .wake [lent]
  | .drained => .drained 0 true
  | .cleared fulfilled => .cleared 0 fulfilled
  | .stopped => .stopped

/-- Set the state of the manager. -/
def State.manage (manager : RunnerState) (state : State) : State where
  runner := { state.runner with manager }
  shutdowns := state.shutdowns.map fun shutdown => { shutdown with state := manager }

variable {η : Type}

/-- The events of a runner that are brought about by a call of `stop`. -/
def shutsDown : Polling.Event → Bool
  | .stop | .forceTerminate => true
  | .pause | .resume | .start _ | .tick _ | .fetch _ _ | .dequeue _ _ _ | .take _ _ _ | .begin _ _ _
  | .abandon _ _ | .complete _ _ | .close _ | .answer _ _ => false

/-- One turn of the event loop. -/
def step (setup : Polling.Setup η) (tries : Manager.Number) (state : State) : Event → Option State
  | .runner event =>
      if shutsDown event then none
      else
        (Polling.step setup state.runner event).map fun runner =>
          { state with runner }.manage runner.manager
  | .stop lent =>
      let shutdown := Manager.Shutdown.begin tries state.runner.manager [lent]
      some ({
        runner := { state.runner with log := state.runner.log ++ [.stop] }
        shutdowns := state.shutdowns ++ [shutdown] : State }.manage shutdown.state)
  | .shutdown index answer =>
      state.shutdowns[index]?.bind fun shutdown =>
        ((Manager.Shutdown.system tries).step shutdown answer.event).map fun after =>
          { state with shutdowns := state.shutdowns.set index after }.manage after.state

/-- What an event asks of the pool. -/
def request (state : State) : Event → Option (Request Nat)
  | .runner (.answer id fulfilled) =>
      match state.runner.stageOf id, fulfilled with
      | some .acquiring, true => some (.lend id)
      | some .releasing, true => some (.giveBack id)
      | some .releasing, false => some (.refuse id)
      | _, _ => none
  | .runner _ => none
  | .stop lent | .shutdown _ (.wake lent) => some (.count lent)
  | .shutdown _ .drained => some (.count 0)
  | .shutdown _ (.cleared _) | .shutdown _ .stopped => none

/-- An instance whose pool has a capacity. -/
def system (setup : Polling.Setup η) (tries : Manager.Number) (capacity : Nat) :
    System (Stocked State Nat capacity) Event :=
  System.lending ⟨step setup tries⟩ request capacity

/-- An instance before its first pass. -/
def initial (capacity : Nat) : Stocked State Nat capacity := ⟨⟨.initial, []⟩, .nothing⟩

/-- The handling that gets a resource although its payload is `null`. -/
def wasted (state : State) : Event → List Nat
  | .runner (.answer id true) =>
      match state.runner.handlings[id]? with
      | some ⟨_, payload, _, .acquiring⟩ => if nullish payload then [id] else []
      | _ => []
  | _ => []

/-- The handlings that have got a resource for `null` in the course of a run. -/
def lostIn {capacity : Nat} (setup : Polling.Setup η) (tries : Manager.Number)
    (events : List Event) (start : Stocked State Nat capacity) : List Nat :=
  (system setup tries capacity).gathered (fun stocked => wasted stocked.state) events start

/-- The handlings whose handlers have been called and have not settled. -/
def calling (runner : Polling.State) : List Nat :=
  (List.range runner.handlings.length).filter fun id => runner.stageOf id = some .subscribed

/-- Whether a handling has a resource that it is going to give back. -/
def borrows : Polling.Stage → Bool
  | .deletingFirst | .subscribed | .deletingLast | .releasing => true
  | .wrapped | .acquiring | .done | .rejected => false

/-! ## What one turn does -/

section Turns

variable {setup : Polling.Setup η} {tries : Manager.Number} {capacity : Nat}

/-- With its resource a handling goes on, unless its payload is `null`. -/
theorem acquired_spec (setup : Polling.Setup η) (handling : Polling.Handling) :
    if nullish handling.payload then handling.acquired setup = (.rejected, [])
    else borrows (handling.acquired setup).1 = true := by
  have calls : borrows (handling.subscribe setup).1 = true := by
    rw [Polling.Handling.subscribe]
    split <;> rfl
  rw [Polling.Handling.acquired]
  split
  · rfl
  · split
    · rfl
    · split
      · exact calls
      · rfl

/-- A handling begins without a resource. -/
theorem borrows_admission (manager : RunnerState) :
    borrows (Polling.admission manager) = false := by
  rw [Polling.admission]
  split <;> rfl

theorem borrows_entrance (setup : Polling.Setup η) (manager : RunnerState) (message : SqsMessage) :
    borrows (Polling.entrance setup manager message) = false := by
  rw [Polling.entrance]
  split
  · rfl
  · split
    · rfl
    · exact borrows_admission manager

/-- A handling that has its resource keeps it until it gives it back. -/
theorem answer_of_borrows {handling : Polling.Handling} {fulfilled : Bool}
    {next : Polling.Stage × List Polling.Deed}
    (answers : handling.answer setup fulfilled = some next)
    (borrowed : borrows handling.stage = true) (kept : handling.stage ≠ .releasing) :
    borrows next.1 = true := by
  have calls : borrows (handling.subscribe setup).1 = true := by
    rw [Polling.Handling.subscribe]
    split <;> rfl
  obtain ⟨topic, payload, message, stage⟩ := handling
  cases stage with
  | wrapped | acquiring | done | rejected => contradiction
  | releasing => exact absurd rfl kept
  | deletingFirst | deletingLast =>
      cases fulfilled with
      | true =>
          obtain rfl := Option.some.inj answers
          first | exact calls | rfl
      | false =>
          obtain ⟨-, same⟩ := Option.ite_none_right_eq_some.mp answers
          obtain rfl := Option.some.inj same
          rfl
  | subscribed =>
      cases fulfilled with
      | true =>
          obtain rfl := Option.some.inj answers
          dsimp only
          split <;> rfl
      | false =>
          obtain rfl := Option.some.inj answers
          rfl

variable {before after : Stocked State Nat capacity} {event : Event}

/-- What an event does to the handlings, the log and the loans. -/
inductive Turn (setup : Polling.Setup η) (before : Stocked State Nat capacity) :
    Event → Stocked State Nat capacity → Prop
  | quiet {event : Event} {after : Stocked State Nat capacity}
      (handlings : after.state.runner.handlings = before.state.runner.handlings)
      (log : after.state.runner.log = before.state.runner.log ∨
        after.state.runner.log = before.state.runner.log ++ [.stop])
      (loans : after.loans = before.loans) (careful : wasted before.state event = []) :
      Turn setup before event after
  | taken {event : Event} {after : Stocked State Nat capacity} (handling : Polling.Handling)
      (unlent : borrows handling.stage = false)
      (handlings : after.state.runner.handlings = before.state.runner.handlings ++ [handling])
      (log : after.state.runner.log = before.state.runner.log)
      (loans : after.loans = before.loans) (careful : wasted before.state event = []) :
      Turn setup before event after
  | begun {event : Event} {after : Stocked State Nat capacity} {id : Nat}
      {handling next : Polling.Handling}
      (found : before.state.runner.handlings[id]? = some handling)
      (wrapped : handling.stage = .wrapped) (unlent : borrows next.stage = false)
      (handlings : after.state.runner.handlings = before.state.runner.handlings.set id next)
      (log : after.state.runner.log = before.state.runner.log)
      (loans : after.loans = before.loans) (careful : wasted before.state event = []) :
      Turn setup before event after
  | answered {id : Nat} {fulfilled : Bool} {after : Stocked State Nat capacity}
      {handling : Polling.Handling} {next : Polling.Stage × List Polling.Deed}
      (found : before.state.runner.handlings[id]? = some handling)
      (answers : handling.answer setup fulfilled = some next)
      (handlings : after.state.runner.handlings =
        before.state.runner.handlings.set id { handling with stage := next.1 })
      (log : after.state.runner.log =
        before.state.runner.log ++ next.2.map (Polling.Notice.deed id))
      (served : before.loans.serve (request before.state (.runner (.answer id fulfilled))) =
        some after.loans) :
      Turn setup before (.runner (.answer id fulfilled)) after

/-- The runner takes its own steps, except that only the shutdowns stop it. -/
theorem step_runner {state next : State} {event : Polling.Event}
    (stepped : step setup tries state (.runner event) = some next) :
    ∃ runner, Polling.step setup state.runner event = some runner ∧
      next = { state with runner }.manage runner.manager := by
  obtain ⟨-, rest⟩ := Option.ite_none_left_eq_some.mp stepped
  obtain ⟨runner, goes, same⟩ := Option.map_eq_some_iff.mp rest
  exact ⟨runner, goes, same.symm⟩

/-- Only the handlings ask for resources, when they are answered. -/
theorem request_runner (state : State) {event : Polling.Event}
    (other : ∀ id fulfilled, event ≠ .answer id fulfilled) :
    request state (.runner event) = none ∧ wasted state (.runner event) = [] := by
  cases event with
  | answer id fulfilled => exact absurd rfl (other id fulfilled)
  | stop | forceTerminate | pause | resume | start | tick | fetch | dequeue | take | begin
  | abandon | complete | close => exact ⟨rfl, rfl⟩

theorem step_turn (stepped : (system setup tries capacity).step before event = some after) :
    Turn setup before event after := by
  obtain ⟨step, served⟩ := System.lending_spec stepped
  cases event with
  | runner event =>
      have step : Pooled.step setup tries before.state (.runner event) = some after.state := step
      obtain ⟨runner, goes, same⟩ := step_runner step
      have effect := Polling.step_effect goes
      by_cases answers : ∃ id fulfilled, event = .answer id fulfilled
      · obtain ⟨id, fulfilled, rfl⟩ := answers
        simp only [Polling.step] at goes
        split at goes
        · rename_i handling found
          obtain ⟨next, answers, rfl⟩ := Option.map_eq_some_iff.mp goes
          exact .answered found answers (by rw [same]; rfl) (by rw [same]; rfl) served
        · cases goes
      · simp only [not_exists] at answers
        obtain ⟨unasked, careful⟩ := request_runner before.state answers
        rw [unasked] at served
        have loans : after.loans = before.loans := (Option.some.inj served).symm
        cases effect with
        | stop => exact .quiet (by rw [same]; rfl) (.inr (by rw [same]; rfl)) loans careful
        | pause => exact .quiet (by rw [same]; rfl) (.inl (by rw [same]; rfl)) loans careful
        | resume => exact .quiet (by rw [same]; rfl) (.inl (by rw [same]; rfl)) loans careful
        | quiet _ handlings log =>
            exact .quiet (by rw [same]; exact handlings) (.inl (by rw [same]; exact log)) loans
              careful
        | taken handling entered _ handlings log =>
            exact .taken handling (entered ▸ borrows_entrance _ _ _)
              (by rw [same]; exact handlings) (by rw [same]; exact log) loans careful
        | begun found _ wrapped =>
            exact .begun found wrapped (borrows_admission _) (by rw [same]; rfl)
              (by rw [same]; rfl) loans careful
        | answered found _ => exact absurd rfl (answers _ _)
  | stop lent =>
      obtain ⟨-, loans⟩ := Loans.count_spec served
      obtain same := Option.some.inj step
      exact .quiet (by rw [← same]; rfl) (.inr (by rw [← same]; rfl)) loans rfl
  | shutdown index answer =>
      obtain ⟨shutdown, -, rest⟩ := Option.bind_eq_some_iff.mp step
      obtain ⟨next, -, same⟩ := Option.map_eq_some_iff.mp rest
      have loans : after.loans = before.loans := by
        cases answer with
        | wake lent => exact (Loans.count_spec served).2
        | drained => exact (Loans.count_spec served).2
        | cleared fulfilled => exact (Option.some.inj served).symm
        | stopped => exact (Option.some.inj served).symm
      exact .quiet (by rw [← same]; rfl) (.inl (by rw [← same]; rfl)) loans rfl

end Turns

/-! ## What has been lent -/

/-- A handling has a resource that it is going to give back. -/
def Borrowing (handlings : List Polling.Handling) (id : Nat) : Prop :=
  ∃ handling, handlings[id]? = some handling ∧ borrows handling.stage = true

/-- The pool has lent to the handlings that are going to give back, and to those that are lost. -/
structure Held {capacity : Nat} (lost : List Nat) (stocked : Stocked State Nat capacity) :
    Prop where
  distinct : lost.Nodup
  borrowed : ∀ id, id ∈ stocked.loans.borrowers ↔
    id ∈ lost ∨ Borrowing stocked.state.runner.handlings id
  /-- A handling is lost that has got a resource for `null`. -/
  rejected : ∀ id ∈ lost, ∃ handling, stocked.state.runner.handlings[id]? = some handling ∧
    handling.stage = .rejected ∧ nullish handling.payload = true

section Holding

variable {setup : Polling.Setup η} {tries : Manager.Number} {capacity : Nat} {lost : List Nat}
  {before after : Stocked State Nat capacity} {event : Event}

theorem borrowing_append {handlings : List Polling.Handling} {handling : Polling.Handling}
    (unlent : borrows handling.stage = false) (id : Nat) :
    Borrowing (handlings ++ [handling]) id ↔ Borrowing handlings id := by
  rcases Nat.lt_or_ge id handlings.length with old | new
  · rw [Borrowing, List.getElem?_append_left old, Borrowing]
  · refine iff_of_false ?_ ?_
    · rintro ⟨other, found, borrowed⟩
      rw [List.getElem?_append_right new, List.getElem?_singleton] at found
      obtain ⟨-, same⟩ := Option.ite_none_right_eq_some.mp found
      obtain rfl := Option.some.inj same
      cases unlent.symm.trans borrowed
    · rintro ⟨other, found, -⟩
      rw [List.getElem?_eq_none new] at found
      cases found

theorem borrowing_set {handlings : List Polling.Handling} {id : Nat}
    {handling : Polling.Handling} (found : handlings[id]? = some handling)
    (next : Polling.Handling) (other : Nat) :
    Borrowing (handlings.set id next) other ↔
      if other = id then borrows next.stage = true else Borrowing handlings other := by
  obtain ⟨within, -⟩ := List.getElem?_eq_some_iff.mp found
  by_cases same : other = id
  · subst same
    simp [Borrowing, List.getElem?_set_self within]
  · rw [Borrowing, List.getElem?_set_ne (Ne.symm same), if_neg same, Borrowing]

/-- Nothing changes for the loans. -/
theorem Held.quiet (held : Held lost before)
    (handlings : after.state.runner.handlings = before.state.runner.handlings)
    (loans : after.loans = before.loans) : Held lost after := by
  refine ⟨held.distinct, fun id => ?_, fun id member => ?_⟩
  · rw [loans, handlings]
    exact held.borrowed id
  · rw [handlings]
    exact held.rejected id member

/-- A message that is taken has not borrowed anything. -/
theorem Held.taken (held : Held lost before) {handling : Polling.Handling}
    (unlent : borrows handling.stage = false)
    (handlings : after.state.runner.handlings = before.state.runner.handlings ++ [handling])
    (loans : after.loans = before.loans) : Held lost after := by
  refine ⟨held.distinct, fun id => ?_, fun id member => ?_⟩
  · rw [loans, handlings, borrowing_append unlent]
    exact held.borrowed id
  · obtain ⟨other, found, lost⟩ := held.rejected id member
    obtain ⟨within, -⟩ := List.getElem?_eq_some_iff.mp found
    exact ⟨other, by rw [handlings, List.getElem?_append_left within, found], lost⟩

/-- A handling that has not been rejected is not lost. -/
theorem Held.fresh (held : Held lost before) {id : Nat} {handling : Polling.Handling}
    (found : before.state.runner.handlings[id]? = some handling)
    (going : handling.stage ≠ .rejected) : id ∉ lost := by
  intro member
  obtain ⟨other, same, rejected, -⟩ := held.rejected id member
  obtain rfl := Option.some.inj (found.symm.trans same)
  exact going rejected

/-- Whether a handling that has not been rejected has a resource shows in its stage. -/
theorem Held.mem_borrowers (held : Held lost before) {id : Nat} {handling : Polling.Handling}
    (found : before.state.runner.handlings[id]? = some handling)
    (going : handling.stage ≠ .rejected) :
    id ∈ before.loans.borrowers ↔ borrows handling.stage = true := by
  rw [held.borrowed id, Borrowing]
  simp [found, held.fresh found going]

/-- A handling moves on, and perhaps it is lost. -/
theorem Held.moved (held : Held lost before) {id : Nat} {handling next : Polling.Handling}
    {more : List Nat} (found : before.state.runner.handlings[id]? = some handling)
    (going : handling.stage ≠ .rejected)
    (handlings : after.state.runner.handlings = before.state.runner.handlings.set id next)
    (own : more = [] ∨ more = [id] ∧ next.stage = .rejected ∧ nullish next.payload = true)
    (others : ∀ other, other ≠ id →
      (other ∈ after.loans.borrowers ↔ other ∈ before.loans.borrowers))
    (here : id ∈ after.loans.borrowers ↔ id ∈ more ∨ borrows next.stage = true) :
    Held (lost ++ more) after := by
  obtain ⟨within, -⟩ := List.getElem?_eq_some_iff.mp found
  have fresh : id ∉ lost := held.fresh found going
  refine ⟨?_, fun other => ?_, fun other member => ?_⟩
  · rcases own with rfl | ⟨rfl, -⟩
    · rw [List.append_nil]
      exact held.distinct
    · exact List.nodup_append_comm.mp (List.nodup_cons.mpr ⟨fresh, held.distinct⟩)
  · rw [handlings, borrowing_set found, List.mem_append]
    by_cases same : other = id
    · subst same
      rw [if_pos rfl, here]
      simp [fresh]
    · have apart : other ∉ more := by
        rcases own with rfl | ⟨rfl, -⟩
        · exact List.not_mem_nil
        · simpa using same
      rw [if_neg same, others other same, held.borrowed other]
      simp [apart]
  · rw [handlings]
    rcases List.mem_append.mp member with known | new
    · obtain ⟨old, place, lost⟩ := held.rejected other known
      have apart : id ≠ other := fun same => fresh (same ▸ known)
      exact ⟨old, by rw [List.getElem?_set_ne apart, place], lost⟩
    · rcases own with rfl | ⟨rfl, rejected, null⟩
      · cases new
      · obtain rfl := List.mem_singleton.mp new
        exact ⟨_, List.getElem?_set_self within, rejected, null⟩

/-- A handling that gets a resource is lost if its payload is `null`. -/
theorem Held.granted (held : Held lost before) {id : Nat} {handling : Polling.Handling}
    (found : before.state.runner.handlings[id]? = some handling)
    (acquiring : handling.stage = .acquiring)
    (handlings : after.state.runner.handlings = before.state.runner.handlings.set id
      { handling with stage := (handling.acquired setup).1 })
    (lent : before.loans.lend id = some after.loans) :
    Held (lost ++ if nullish handling.payload then [id] else []) after := by
  obtain ⟨-, -, borrowers⟩ := Loans.lend_spec lent
  have going : handling.stage ≠ .rejected := acquiring ▸ Polling.Stage.noConfusion
  have others (other : Nat) (apart : other ≠ id) :
      other ∈ after.loans.borrowers ↔ other ∈ before.loans.borrowers := by
    simp [borrowers, apart]
  have goes := acquired_spec setup handling
  split at goes
  · rename_i null
    rw [if_pos null]
    refine held.moved found going handlings (.inr ⟨rfl, congrArg Prod.fst goes, null⟩) others ?_
    simp [borrowers]
  · rename_i proper
    rw [if_neg proper]
    refine held.moved found going handlings (.inl rfl) others ?_
    simp [borrowers, goes]

/-- A handling gives its resource back. -/
theorem Held.returned (held : Held lost before) {id : Nat} {handling : Polling.Handling}
    (found : before.state.runner.handlings[id]? = some handling)
    (releasing : handling.stage = .releasing)
    (handlings : after.state.runner.handlings =
      before.state.runner.handlings.set id { handling with stage := .done })
    (returned : before.loans.giveBack id = some after.loans) : Held lost after := by
  obtain ⟨-, borrowers⟩ := Loans.giveBack_spec returned
  have going : handling.stage ≠ .rejected := releasing ▸ Polling.Stage.noConfusion
  rw [← List.append_nil lost]
  refine held.moved found going handlings (.inl rfl) ?_ ?_
  · intro other apart
    simp [borrowers, before.loans.distinct.mem_erase_iff, apart]
  · simp [borrowers, before.loans.distinct.mem_erase_iff, borrows]

/-- A handling that goes on without the pool has a resource afterwards if it had one before. -/
theorem Held.works (held : Held lost before) {id : Nat} {handling next : Polling.Handling}
    (found : before.state.runner.handlings[id]? = some handling)
    (going : handling.stage ≠ .rejected)
    (handlings : after.state.runner.handlings = before.state.runner.handlings.set id next)
    (same : borrows next.stage = borrows handling.stage) (loans : after.loans = before.loans) :
    Held lost after := by
  rw [← List.append_nil lost]
  refine held.moved found going handlings (.inl rfl) ?_ ?_
  · exact fun other _ => by rw [loans]
  · rw [loans, held.mem_borrowers found going, same]
    simp

/-- What an answer to a handling does to the loans. -/
theorem Held.answered (held : Held lost before) {id : Nat} {fulfilled : Bool}
    {handling : Polling.Handling} {next : Polling.Stage × List Polling.Deed}
    (found : before.state.runner.handlings[id]? = some handling)
    (answers : handling.answer setup fulfilled = some next)
    (handlings : after.state.runner.handlings =
      before.state.runner.handlings.set id { handling with stage := next.1 })
    (served : before.loans.serve (request before.state (.runner (.answer id fulfilled))) =
      some after.loans) :
    Held (lost ++ wasted before.state (.runner (.answer id fulfilled))) after := by
  have placed : before.state.runner.stageOf id = some handling.stage := by
    rw [Polling.State.stageOf, found]
    rfl
  obtain ⟨topic, payload, message, stage⟩ := handling
  simp only [request, placed] at served
  cases stage with
  | acquiring =>
      cases fulfilled with
      | true =>
          obtain rfl := Option.some.inj answers
          simp only [wasted, found]
          exact held.granted found rfl handlings served
      | false =>
          obtain rfl := Option.some.inj answers
          simp only [wasted, List.append_nil]
          exact held.works found Polling.Stage.noConfusion handlings rfl
            (Option.some.inj served).symm
  | deletingFirst | subscribed | deletingLast =>
      have kept := answer_of_borrows answers rfl Polling.Stage.noConfusion
      have careful : wasted before.state (.runner (.answer id fulfilled)) = [] := by
        cases fulfilled <;> simp [wasted, found]
      rw [careful, List.append_nil]
      exact held.works found Polling.Stage.noConfusion handlings kept (Option.some.inj served).symm
  | releasing =>
      cases fulfilled with
      | true =>
          obtain rfl := Option.some.inj answers
          simp only [wasted, found, List.append_nil]
          exact held.returned found rfl handlings served
      | false =>
          obtain ⟨unknown, -⟩ := Loans.refuse_spec served
          exact absurd ((held.mem_borrowers found Polling.Stage.noConfusion).mpr rfl) unknown
  | wrapped | done | rejected => cases answers

theorem held_step (held : Held lost before)
    (stepped : (system setup tries capacity).step before event = some after) :
    Held (lost ++ wasted before.state event) after := by
  cases step_turn stepped with
  | quiet handlings _ loans careful =>
      rw [careful, List.append_nil]
      exact held.quiet handlings loans
  | taken handling unlent handlings _ loans careful =>
      rw [careful, List.append_nil]
      exact held.taken unlent handlings loans
  | begun found wrapped unlent handlings _ loans careful =>
      rw [careful, List.append_nil]
      exact held.works found (wrapped ▸ Polling.Stage.noConfusion) handlings
        (unlent.trans (wrapped ▸ rfl)) loans
  | answered found answers handlings _ served =>
      exact held.answered found answers handlings served

theorem held_initial : Held [] (initial capacity) where
  distinct := .nil
  borrowed _ := by simp [initial, Loans.nothing, Polling.State.initial, Borrowing]
  rejected _ member := absurd member List.not_mem_nil

/-- The handlings lost in the course of a run stay lost. -/
theorem held_run {events : List Event} (held : Held lost before)
    (execution : (system setup tries capacity).run events before = some after) :
    Held (lost ++ lostIn setup tries events before) after :=
  System.invariant_gathered Held (fun _ _ _ _ held (_ : True) stepped => held_step held stepped)
    held (fun _ _ => trivial) execution

theorem Held.subset (held : Held lost before) : lost ⊆ before.loans.borrowers :=
  fun id member => (held.borrowed id).mpr (.inl member)

/-- When everything is lost, no handler is called any more. -/
theorem silent_step (held : Held lost before) (full : lost.length = capacity)
    (stepped : (system setup tries capacity).step before event = some after) {id : Nat}
    (called : .deed id .subscribe ∈ after.state.runner.log) :
    .deed id .subscribe ∈ before.state.runner.log := by
  cases step_turn stepped with
  | quiet _ log _ _ =>
      rcases log with log | log
      · rwa [log] at called
      · rw [log] at called
        simpa using called
  | taken _ _ _ log _ _ | begun _ _ _ _ log _ _ => rwa [log] at called
  | @answered other fulfilled _ handling next found answers handlings log served =>
      rw [log] at called
      rcases List.mem_append.mp called with earlier | now
      · exact earlier
      have calls : .subscribe ∈ next.2 := by
        obtain ⟨deed, member, same⟩ := List.mem_map.mp now
        obtain ⟨-, rfl⟩ := Polling.Notice.deed.inj same
        exact member
      obtain ⟨topic, payload, message, stage⟩ := handling
      cases stage with
      | wrapped | subscribed | deletingLast | releasing | done | rejected =>
          exact absurd calls (Polling.answer_not_admitted answers rfl).2
      | deletingFirst =>
          have lent := (held.mem_borrowers found Polling.Stage.noConfusion).mpr rfl
          have gone := before.loans.mem_of_full held.distinct held.subset full lent
          exact absurd gone (held.fresh found Polling.Stage.noConfusion)
      | acquiring =>
          cases fulfilled with
          | false =>
              obtain rfl := Option.some.inj answers
              cases calls
          | true =>
              have placed : before.state.runner.stageOf other = some .acquiring := by
                rw [Polling.State.stageOf, found]
                rfl
              simp only [request, placed] at served
              have refused : before.loans.lend other = none :=
                before.loans.lend_of_full held.distinct held.subset full
              cases refused.symm.trans served

theorem silent_run {events : List Event} (held : Held lost before) (full : lost.length = capacity)
    (execution : (system setup tries capacity).run events before = some after) {id : Nat}
    (called : .deed id .subscribe ∈ after.state.runner.log) :
    .deed id .subscribe ∈ before.state.runner.log := by
  have preserved : ∀ middle event next,
      ((∃ all, Held all middle ∧ all.length = capacity) ∧
        (.deed id .subscribe ∈ middle.state.runner.log →
          .deed id .subscribe ∈ before.state.runner.log)) →
      (system setup tries capacity).step middle event = some next →
      (∃ all, Held all next ∧ all.length = capacity) ∧
        (.deed id .subscribe ∈ next.state.runner.log →
          .deed id .subscribe ∈ before.state.runner.log) := by
    rintro middle event next ⟨⟨all, held, full⟩, earlier⟩ stepped
    have kept := held_step held stepped
    have bound := next.loans.length_le kept.distinct kept.subset
    refine ⟨⟨_, kept, ?_⟩, fun called => earlier (silent_step held full stepped called)⟩
    rw [List.length_append] at bound ⊢
    omega
  exact (System.invariant_of_run preserved ⟨⟨lost, held, full⟩, fun called => called⟩ execution).2
    called

/-- The handlings whose handlers run, and those that are lost, have borrowed. -/
theorem Held.calling_le (held : Held lost before) :
    (calling before.state.runner).length + lost.length ≤ capacity := by
  rw [← List.length_append]
  have runs {id : Nat} (member : id ∈ calling before.state.runner) :
      ∃ handling, before.state.runner.handlings[id]? = some handling ∧
        handling.stage = .subscribed := by
    have placed := of_decide_eq_true (List.mem_filter.mp member).2
    exact Option.map_eq_some_iff.mp placed
  refine before.loans.length_le (List.nodup_append.mpr ⟨?_, held.distinct, ?_⟩) ?_
  · exact List.nodup_range.filter _
  · rintro id member other gone rfl
    obtain ⟨handling, found, subscribed⟩ := runs member
    exact held.fresh found (subscribed ▸ Polling.Stage.noConfusion) gone
  · refine List.append_subset.mpr ⟨fun id member => ?_, held.subset⟩
    obtain ⟨handling, found, subscribed⟩ := runs member
    exact (held.borrowed id).mpr (.inr ⟨handling, found, subscribed ▸ rfl⟩)

/-- Each message with the body `null` that gets a resource takes it out of the pool for good.  So
many handlers less can run at once, and after as many such messages as the pool has resources no
handler is called any more.  Everything else that has been lent is going to be given back. -/
theorem resources_accounted {events more : List Event} {middle final : Stocked State Nat capacity}
    (execution : (system setup tries capacity).run events (initial capacity) = some middle)
    (later : (system setup tries capacity).run more middle = some final) :
    (calling middle.state.runner).length +
        (lostIn setup tries events (initial capacity)).length ≤ capacity ∧
      lostIn setup tries events (initial capacity) ⊆ final.loans.borrowers ∧
      (∀ id ∈ middle.loans.borrowers, id ∉ lostIn setup tries events (initial capacity) →
        Borrowing middle.state.runner.handlings id) ∧
      ((lostIn setup tries events (initial capacity)).length = capacity →
        ∀ id, .deed id .subscribe ∈ final.state.runner.log →
          .deed id .subscribe ∈ middle.state.runner.log) := by
  have held := held_run held_initial execution
  rw [List.nil_append] at held
  refine ⟨held.calling_le, ?_, ?_, fun full id => silent_run held full later⟩
  · exact List.Subset.trans (List.subset_append_left _ _) (held_run held later).subset
  · exact fun id member kept => ((held.borrowed id).mp member).resolve_left kept

end Holding

/-- A pass of a runner whose pool has one resource, over a message with the body `null`. -/
def nullPass : List Event :=
  [.runner (.start ["orders"]), .runner (.fetch 0 0),
    .runner (.dequeue 0 0 (some [⟨some .null, some "1"⟩])), .runner (.take 0 0 0),
    .runner (.answer 0 true)]

/-- The batch is given up, `stop` is called, and the runner terminates at its next pass. -/
def stopPass : List Event :=
  [.runner (.abandon 0 0), .runner (.close 0), .stop 1, .runner (.tick ["orders"]),
    .shutdown 0 (.wake 1)]

/-- After the only resource has been lost, the runner calls no handler. -/
theorem nullPass_silent : ∃ middle final,
    (system Polling.orders (Manager.tries none) 1).run nullPass (initial 1) = some middle ∧
      (system Polling.orders (Manager.tries none) 1).run stopPass middle = some final ∧
      lostIn Polling.orders (Manager.tries none) nullPass (initial 1) = [0] ∧
      ∀ id, .deed id .subscribe ∉ final.state.runner.log := by
  have passes : (system Polling.orders (Manager.tries none) 1).run nullPass (initial 1) =
      some _ := rfl
  refine ⟨_, _, passes, rfl, rfl, fun id called => ?_⟩
  obtain ⟨-, -, -, silent⟩ := resources_accounted passes
    (show (system Polling.orders (Manager.tries none) 1).run stopPass _ = some _ from rfl)
  exact absurd (silent rfl id called) List.not_mem_nil

end Pooled

end Steveo
