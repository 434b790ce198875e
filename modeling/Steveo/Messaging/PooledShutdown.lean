import Steveo.Messaging.Pooled

/-!
# The shutdowns of an SQS instance

A call of `stop` waits until the runner has terminated, and then for the pool, if it has lent
something, before it stops the producer.  A resource that never comes back keeps it waiting.
-/

namespace Steveo

namespace Pooled

variable {η : Type}

/-! ## What the shutdowns do -/

/-- A shutdown has neither stopped the producer nor told the listeners. -/
def Uncalled (shutdown : Manager.Shutdown) : Prop :=
  .stop ∉ shutdown.calls ∧ .terminate ∉ shutdown.calls

/-- A shutdown waits in its loop, or for the pool to be drained. -/
structure Unstopped (shutdown : Manager.Shutdown) : Prop where
  stage : shutdown.stage = .sleeping ∨ shutdown.stage = .draining [.draining]
  uncalled : Uncalled shutdown

section Stopping

open Manager.Shutdown (look)

variable {tries : Manager.Number} {shutdown : Manager.Shutdown}

theorem unstopped_leave {lent : Nat} (uncalled : Uncalled shutdown) (lends : 0 < lent) :
    Unstopped (Manager.Shutdown.leave [lent] shutdown) := by
  have leaves : Manager.Shutdown.leave [lent] shutdown =
      { shutdown with
        stage := .draining [.draining]
        ended := some shutdown.state
        borrowed := [lent]
        calls := shutdown.calls ++ (Manager.lenders [lent]).map .drain } := by
    simp [Manager.Shutdown.leave, Manager.Shutdown.proceed, lends]
  rw [leaves]
  exact ⟨.inr rfl, by simp [uncalled.1], by simp [uncalled.2]⟩

/-- While something is lent, the loop is left for the pool only. -/
theorem unstopped_look {lent : Nat} (uncalled : Uncalled shutdown) (lends : 0 < lent) :
    Unstopped (look tries [lent] shutdown) := by
  rw [look]
  split
  · exact unstopped_leave uncalled lends
  · split
    · exact unstopped_leave uncalled lends
    · exact ⟨.inl rfl, by simp [uncalled.1], by simp [uncalled.2]⟩

/-- In its loop a shutdown calls nobody. -/
theorem uncalled_look {borrowed : List Nat} (uncalled : Uncalled shutdown)
    (sleeping : (look tries borrowed shutdown).stage = .sleeping) :
    Uncalled (look tries borrowed shutdown) := by
  have left (other : Manager.Shutdown) :
      (Manager.Shutdown.leave borrowed other).stage ≠ .sleeping := by
    simp only [Manager.Shutdown.leave, Manager.Shutdown.proceed]
    split <;> exact Manager.Stage.noConfusion
  rw [look] at sleeping ⊢
  split at sleeping
  · exact absurd sleeping (left _)
  · split at sleeping
    · exact absurd sleeping (left _)
    · rename_i active unreached
      rw [if_neg active, if_neg unreached]
      exact ⟨by simp [uncalled.1], by simp [uncalled.2]⟩

end Stopping

section Courses

variable {setup : Polling.Setup η} {tries : Manager.Number} {capacity index : Nat}
  {lost : List Nat} {shutdown : Manager.Shutdown}

/-- What becomes of a shutdown in an event. -/
inductive Course (tries : Manager.Number) (before : State) (index : Nat) :
    Event → Manager.Shutdown → Prop
  | kept {event : Event} {shutdown : Manager.Shutdown} (manager : RunnerState)
      (found : before.shutdowns[index]? = some shutdown) :
      Course tries before index event { shutdown with state := manager }
  | begun (lent : Nat) (last : before.shutdowns.length ≤ index) :
      Course tries before index (.stop lent)
        (Manager.Shutdown.begin tries before.runner.manager [lent])
  | moved {answer : Answer} {shutdown next : Manager.Shutdown}
      (found : before.shutdowns[index]? = some shutdown)
      (goes : (Manager.Shutdown.system tries).step shutdown answer.event = some next) :
      Course tries before index (.shutdown index answer) next

theorem step_course {before after : State} {event : Event}
    (stepped : step setup tries before event = some after)
    (found : after.shutdowns[index]? = some shutdown) :
    Course tries before index event shutdown := by
  cases event with
  | runner event =>
      obtain ⟨runner, -, rfl⟩ := step_runner stepped
      rw [State.manage, List.getElem?_map] at found
      obtain ⟨old, place, rfl⟩ := Option.map_eq_some_iff.mp found
      exact .kept _ place
  | stop lent =>
      obtain rfl := Option.some.inj stepped
      rw [State.manage, List.getElem?_map] at found
      obtain ⟨old, place, rfl⟩ := Option.map_eq_some_iff.mp found
      rcases Nat.lt_or_ge index before.shutdowns.length with known | new
      · rw [List.getElem?_append_left known] at place
        exact .kept _ place
      · rw [List.getElem?_append_right new, List.getElem?_singleton] at place
        obtain ⟨-, same⟩ := Option.ite_none_right_eq_some.mp place
        obtain rfl := Option.some.inj same
        exact .begun lent new
  | shutdown other answer =>
      obtain ⟨old, place, rest⟩ := Option.bind_eq_some_iff.mp stepped
      obtain ⟨next, goes, rfl⟩ := Option.map_eq_some_iff.mp rest
      rw [State.manage, List.getElem?_map] at found
      obtain ⟨middle, at_index, rfl⟩ := Option.map_eq_some_iff.mp found
      by_cases same : other = index
      · subst same
        obtain ⟨within, -⟩ := List.getElem?_eq_some_iff.mp place
        rw [List.getElem?_set_self within] at at_index
        obtain rfl := Option.some.inj at_index
        exact .moved place goes
      · rw [List.getElem?_set_ne same] at at_index
        exact .kept _ at_index

/-- As long as it sleeps a shutdown has called nobody. -/
theorem Course.uncalled {before : State} {event : Event}
    (course : Course tries before index event shutdown)
    (earlier : ∀ old, before.shutdowns[index]? = some old → old.stage = .sleeping → Uncalled old)
    (sleeping : shutdown.stage = .sleeping) : Uncalled shutdown := by
  cases course with
  | @kept _ old manager found => exact earlier old found sleeping
  | begun lent _ => exact uncalled_look ⟨List.not_mem_nil, List.not_mem_nil⟩ sleeping
  | @moved answer old _ found goes =>
      have effect := Manager.Shutdown.effect_of_step goes
      generalize happened : answer.event = event at effect
      cases effect with
      | wake borrowed asleep =>
          exact uncalled_look (earlier old found asleep) sleeping
      | drained | stopped => cases sleeping
      | settled =>
          simp only [Manager.Shutdown.settle, Manager.Shutdown.proceed] at sleeping
          split at sleeping <;> cases sleeping
      | change => cases answer <;> cases happened

/-- While the pool has lent something, a shutdown does not come past it. -/
theorem Course.unstopped {before : Stocked State Nat capacity} {event : Event}
    {loans : Loans Nat capacity} (course : Course tries before.state index event shutdown)
    (earlier : ∀ old, before.state.shutdowns[index]? = some old → Unstopped old)
    (served : before.loans.serve (request before.state event) = some loans)
    (lends : 0 < before.loans.borrowers.length) : Unstopped shutdown := by
  cases course with
  | kept manager found => exact ⟨(earlier _ found).stage, (earlier _ found).uncalled⟩
  | begun lent _ =>
      obtain ⟨rfl, -⟩ := Loans.count_spec served
      exact unstopped_look ⟨List.not_mem_nil, List.not_mem_nil⟩ lends
  | @moved answer old _ found goes =>
      obtain ⟨stage, uncalled⟩ := earlier old found
      cases answer with
      | wake lent =>
          obtain ⟨rfl, -⟩ := Loans.count_spec served
          rcases stage with sleeping | draining
          · simp only [Answer.event, Manager.Shutdown.system, sleeping] at goes
            obtain rfl := Option.some.inj goes
            exact unstopped_look uncalled lends
          · simp [Answer.event, Manager.Shutdown.system, draining] at goes
      | drained =>
          obtain ⟨none_left, -⟩ := Loans.count_spec served
          omega
      | cleared fulfilled =>
          rcases stage with stage | stage <;>
            simp [Answer.event, Manager.Shutdown.system, stage] at goes
      | stopped =>
          rcases stage with stage | stage <;>
            simp [Answer.event, Manager.Shutdown.system, stage] at goes

theorem uncalled_run {events : List Event} {before after : Stocked State Nat capacity}
    (earlier : ∀ old, before.state.shutdowns[index]? = some old → old.stage = .sleeping →
      Uncalled old)
    (execution : (system setup tries capacity).run events before = some after) :
    ∀ shutdown, after.state.shutdowns[index]? = some shutdown → shutdown.stage = .sleeping →
      Uncalled shutdown := by
  have preserved : ∀ middle event next,
      (∀ old, middle.state.shutdowns[index]? = some old → old.stage = .sleeping → Uncalled old) →
      (system setup tries capacity).step middle event = some next →
      ∀ old, next.state.shutdowns[index]? = some old → old.stage = .sleeping → Uncalled old := by
    intro middle event next earlier stepped old found
    obtain ⟨step, -⟩ := System.lending_spec stepped
    exact (step_course step found).uncalled earlier
  exact System.invariant_of_run preserved earlier execution

/-- Once a handling is lost, a shutdown that has not left its loop never comes past the pool. -/
theorem unstopped_run {events : List Event} {before after : Stocked State Nat capacity}
    (held : Held lost before) (some_lost : lost ≠ [])
    (earlier : ∀ old, before.state.shutdowns[index]? = some old → Unstopped old)
    (execution : (system setup tries capacity).run events before = some after) :
    ∀ shutdown, after.state.shutdowns[index]? = some shutdown → Unstopped shutdown := by
  have preserved : ∀ middle event next,
      ((∃ more, Held (lost ++ more) middle) ∧
        ∀ old, middle.state.shutdowns[index]? = some old → Unstopped old) →
      (system setup tries capacity).step middle event = some next →
      (∃ more, Held (lost ++ more) next) ∧
        ∀ old, next.state.shutdowns[index]? = some old → Unstopped old := by
    rintro middle event next ⟨⟨more, held⟩, earlier⟩ stepped
    obtain ⟨step, served⟩ := System.lending_spec stepped
    have kept := held_step held stepped
    rw [List.append_assoc] at kept
    have lends : 0 < middle.loans.borrowers.length := by
      have room := held.distinct.length_le_of_subset held.subset
      have positive := List.length_pos_of_ne_nil some_lost
      rw [List.length_append] at room
      omega
    exact ⟨⟨_, kept⟩, fun old found => (step_course step found).unstopped earlier served lends⟩
  exact (System.invariant_of_run preserved
    ⟨⟨[], by rwa [List.append_nil]⟩, earlier⟩ execution).2

/-- Once a message with the body `null` has got a resource, no call of `stop` comes to its end whose
loop has not ended before: it waits for the pool to be drained, and neither stops the producer
nor tells the listeners. -/
theorem lost_never_stopped {events more : List Event}
    {middle final : Stocked State Nat capacity}
    (execution : (system setup tries capacity).run events (initial capacity) = some middle)
    (some_lost : lostIn setup tries events (initial capacity) ≠ [])
    (waiting : ∀ old, middle.state.shutdowns[index]? = some old → old.stage = .sleeping)
    (later : (system setup tries capacity).run more middle = some final)
    (found : final.state.shutdowns[index]? = some shutdown) :
    (shutdown.stage = .sleeping ∨ shutdown.stage = .draining [.draining]) ∧
      .stop ∉ shutdown.calls ∧ .terminate ∉ shutdown.calls := by
  have held := held_run held_initial execution
  rw [List.nil_append] at held
  have unbegun : ∀ old, (initial capacity).state.shutdowns[index]? = some old →
      old.stage = .sleeping → Uncalled old := fun old found => by cases found
  have uncalled := uncalled_run unbegun execution
  have unstopped := unstopped_run held some_lost
    (fun old found => ⟨.inl (waiting old found), uncalled old found (waiting old found)⟩) later
    shutdown found
  exact ⟨unstopped.stage, unstopped.uncalled⟩

end Courses

/-- A shutdown is called after the only resource has been lost, and it never ends. -/
theorem nullPass_unstopped : ∃ final shutdown,
    (system Polling.orders (Manager.tries none) 1).run (nullPass ++ stopPass) (initial 1) =
        some final ∧
      final.state.shutdowns[0]? = some shutdown ∧
      shutdown.stage = .draining [.draining] ∧ .stop ∉ shutdown.calls := by
  have passes : (system Polling.orders (Manager.tries none) 1).run nullPass (initial 1) =
      some _ := rfl
  obtain ⟨-, uncalled, -⟩ := lost_never_stopped passes (List.cons_ne_nil 0 [])
    (fun _ found => by cases found)
    (show (system Polling.orders (Manager.tries none) 1).run stopPass _ = some _ from rfl)
    (show (State.shutdowns _)[0]? = some _ from rfl)
  exact ⟨_, _, rfl, rfl, rfl, uncalled⟩

/-! ## The parts of an instance -/

section Parts

variable {setup : Polling.Setup η} {tries : Manager.Number} {capacity : Nat}

/-- A shutdown leaves the state of the manager alone or terminates it. -/
theorem look_state (tries : Manager.Number) (borrowed : List Nat) (shutdown : Manager.Shutdown) :
    (Manager.Shutdown.look tries borrowed shutdown).state = shutdown.state ∨
      (Manager.Shutdown.look tries borrowed shutdown).state = .terminated := by
  have proceeds (other : Manager.Shutdown) :
      (Manager.Shutdown.proceed other).state = other.state := by
    rw [Manager.Shutdown.proceed]
    split
    · split <;> rfl
    · rfl
  rw [Manager.Shutdown.look]
  split
  · exact .inl (proceeds _)
  · split
    · exact .inr (proceeds _)
    · exact .inl rfl

theorem answer_state {shutdown after : Manager.Shutdown} {answer : Answer}
    (goes : (Manager.Shutdown.system tries).step shutdown answer.event = some after) :
    after.state = shutdown.state ∨ after.state = .terminated := by
  have effect := Manager.Shutdown.effect_of_step goes
  generalize happened : answer.event = event at effect
  cases effect with
  | wake borrowed _ => exact look_state tries borrowed _
  | drained | stopped => exact .inl rfl
  | settled =>
      rw [Manager.Shutdown.settle, Manager.Shutdown.proceed]
      dsimp only
      split <;> exact .inl rfl
  | change => cases answer <;> cases happened

/-- The runner has come to its state by itself, and the shutdowns, which follow calls of `stop`,
share its manager. -/
structure Shared (setup : Polling.Setup η) (state : State) : Prop where
  reached : (Polling.system setup).Reaches .initial state.runner
  manager : ∀ shutdown ∈ state.shutdowns, shutdown.state = state.runner.manager
  stopped : state.shutdowns ≠ [] → .stop ∈ state.runner.log

theorem manage_manager (manager : RunnerState) (state : State) :
    ∀ shutdown ∈ (state.manage manager).shutdowns,
      shutdown.state = (state.manage manager).runner.manager := by
  intro shutdown member
  obtain ⟨old, -, rfl⟩ := List.mem_map.mp member
  rfl

/-- The runner keeps what it has logged. -/
theorem mem_log {before after : Polling.State} {event : Polling.Event}
    (stepped : Polling.step setup before event = some after) {notice : Polling.Notice}
    (logged : notice ∈ before.log) : notice ∈ after.log := by
  cases Polling.step_effect stepped with
  | stop => exact List.mem_append_left _ logged
  | pause | resume => exact logged
  | quiet _ _ log | taken _ _ _ _ log => rwa [log]
  | begun => exact logged
  | answered => exact List.mem_append_left _ logged

theorem begin_state (tries : Manager.Number) (manager : RunnerState) (borrowed : List Nat) :
    (Manager.Shutdown.begin tries manager borrowed).state =
        (if manager.shouldTerminate then manager else .terminating) ∨
      (Manager.Shutdown.begin tries manager borrowed).state = .terminated := by
  rw [Manager.Shutdown.begin]
  refine (look_state tries borrowed _).imp_left fun kept => ?_
  rw [kept]
  cases manager <;> rfl

/-- A runner that has been stopped can be terminated. -/
theorem reaches_manager {runner : Polling.State} (stopped : .stop ∈ runner.log)
    {manager : RunnerState} (sets : manager = runner.manager ∨ manager = .terminated) :
    (Polling.system setup).Reaches runner { runner with manager } := by
  rcases sets with rfl | rfl
  · exact .refl _ _
  · exact ⟨[.forceTerminate], by simp [Polling.system, Polling.step, stopped]⟩

/-- What a call of `stop` does to the runner, the runner can do. -/
theorem reaches_stop (tries : Manager.Number) (runner : Polling.State) (lent : Nat) :
    (Polling.system setup).Reaches runner
      { runner with
        manager := (Manager.Shutdown.begin tries runner.manager [lent]).state
        log := runner.log ++ [.stop] } := by
  have stops : (Polling.system setup).Reaches runner
      { runner with
        manager := if runner.manager.shouldTerminate then runner.manager else .terminating
        log := runner.log ++ [.stop] } := ⟨[.stop], rfl⟩
  exact stops.trans (reaches_manager (List.mem_append_right _ (List.mem_singleton.mpr rfl))
    (begin_state tries runner.manager [lent]))

theorem shared_step {before after : State} {event : Event} (shared : Shared setup before)
    (stepped : step setup tries before event = some after) : Shared setup after := by
  cases event with
  | runner event =>
      obtain ⟨runner, goes, rfl⟩ := step_runner stepped
      have reached : (Polling.system setup).Reaches before.runner runner := .single goes
      refine ⟨shared.reached.trans reached, manage_manager _ _, fun some_begun => ?_⟩
      exact mem_log goes (shared.stopped fun idle => some_begun (by simp [State.manage, idle]))
  | stop lent =>
      obtain rfl := Option.some.inj stepped
      refine ⟨shared.reached.trans (reaches_stop tries _ lent), manage_manager _ _, fun _ => ?_⟩
      exact List.mem_append_right _ (List.mem_singleton.mpr rfl)
  | shutdown index answer =>
      obtain ⟨old, found, rest⟩ := Option.bind_eq_some_iff.mp stepped
      obtain ⟨next, goes, rfl⟩ := Option.map_eq_some_iff.mp rest
      have member := List.mem_of_getElem? found
      have stopped := shared.stopped (List.ne_nil_of_mem member)
      refine ⟨shared.reached.trans (reaches_manager stopped ?_), manage_manager _ _,
        fun _ => stopped⟩
      rw [← shared.manager old member]
      exact answer_state goes

/-- Every run of an instance is a run of its runner's loop, as far as the runner goes, and every
call of `stop` goes through a run of the shutdown. -/
theorem parts_follow {events : List Event} {final : Stocked State Nat capacity}
    (execution : (system setup tries capacity).run events (initial capacity) = some final) :
    (Polling.system setup).Reaches .initial final.state.runner ∧
      ∀ shutdown ∈ final.state.shutdowns, ∃ manager lent,
        (Manager.Shutdown.system tries).Reaches
          (Manager.Shutdown.begin tries manager [lent]) shutdown := by
  have run := System.lending_run execution
  have unbegun : (initial capacity).state.shutdowns = [] := rfl
  constructor
  · have begins : Shared setup (initial capacity).state :=
      ⟨.refl _ _, by simp [unbegun], by simp [unbegun]⟩
    have preserved : ∀ before event after, Shared setup before →
        step setup tries before event = some after → Shared setup after :=
      fun _ _ _ shared stepped => shared_step shared stepped
    exact (System.invariant_of_run preserved begins run).reached
  · have preserved : ∀ before event after,
        (∀ shutdown ∈ State.shutdowns before, ∃ manager lent,
          (Manager.Shutdown.system tries).Reaches
            (Manager.Shutdown.begin tries manager [lent]) shutdown) →
        step setup tries before event = some after →
        ∀ shutdown ∈ after.shutdowns, ∃ manager lent,
          (Manager.Shutdown.system tries).Reaches
            (Manager.Shutdown.begin tries manager [lent]) shutdown := by
      intro before event after earlier stepped shutdown member
      obtain ⟨index, found⟩ := List.mem_iff_getElem?.mp member
      cases step_course stepped found with
      | @kept _ old manager place =>
          obtain ⟨first, lent, reached⟩ := earlier old (List.mem_of_getElem? place)
          exact ⟨first, lent, reached.trans ⟨[.change manager], rfl⟩⟩
      | begun lent _ => exact ⟨_, lent, .refl _ _⟩
      | @moved _ old _ place goes =>
          obtain ⟨first, lent, reached⟩ := earlier old (List.mem_of_getElem? place)
          exact ⟨first, lent, reached.trans (.single goes)⟩
    exact System.invariant_of_run preserved (by simp [unbegun]) run

end Parts

/-- The instance whose message has the body `null` is made of a runner and a shutdown. -/
theorem nullPass_parts : ∃ final,
    (system Polling.orders (Manager.tries none) 1).run (nullPass ++ stopPass) (initial 1) =
        some final ∧
      (Polling.system Polling.orders).Reaches .initial final.state.runner := by
  have execution : (system Polling.orders (Manager.tries none) 1).run (nullPass ++ stopPass)
      (initial 1) = some _ := rfl
  exact ⟨_, execution, (parts_follow execution).1⟩

end Pooled

end Steveo
