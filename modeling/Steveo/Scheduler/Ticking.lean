import Steveo.Scheduler.Termination

/-!
# The loop of a scheduler

A call of `runScheduledJobs` arms the timer for the next one when it ends.  An enqueue query that
is rejected ends a call without arming it, and this file says that nothing else stops the loop.
-/

namespace Steveo.Scheduler

namespace Termination

/-- The number of runs that have not ended. -/
def State.active (state : State) : Nat := state.runs.countP (· ≠ .ended)

/-- Either one run is in progress, or the timer for the next one is pending. -/
def Ticks (state : State) : Prop := state.active + state.timer.toNat = 1

/-- In every state that is reached after a call of `runScheduledJobs` and the initialisation, and
before the scheduler is exiting, either one run is in progress or the timer is pending. -/
def KeepsTicking (tasks : List String) (idle : State) (later : List Event) : Prop :=
  ∀ events reached, events <+: later →
    (system tasks).run (.runScheduledJobs :: events) idle = some reached →
      .initialized 0 ∈ events → reached.exiting = false → Ticks reached

/-- The database rejects no enqueue query of a scheduler that is not exiting.  The initialisation
of the only run may be rejected. -/
def Answered (state : State) : Event → Prop
  | .rejected _ => state.exiting = true ∨ state.runs = [.initializing]
  | _ => True

/-- A scheduler whose runs have not been initialised; there is at most one. -/
structure Fresh (state : State) : Prop where
  unset : state.timer = false
  first : state.runs = [.initializing] ∨ state.runs = [.ended]

/-- The loop of a scheduler that has been initialised; it goes on until the scheduler exits. -/
structure Looping (state : State) : Prop where
  single : state.active + state.timer.toNat ≤ 1
  ticks : state.exiting = false → Ticks state

section Steps

variable {tasks : List String} {before after : State}

/-- The state of a run in progress changes the number of such runs by itself. -/
theorem active_set {index : Nat} {old : Run} (new : Run) (found : before.runs[index]? = some old)
    (running : old ≠ .ended) :
    (before.runs.set index new).countP (· ≠ .ended) + 1 =
      before.active + (if new = .ended then 0 else 1) := by
  obtain ⟨bound, here⟩ := List.getElem?_eq_some_iff.mp found
  have positive : 0 < before.active :=
    List.countP_pos_iff.mpr ⟨old, List.mem_of_getElem? found, by simpa using running⟩
  rw [State.active] at positive ⊢
  rw [List.countP_set bound, here, if_pos (decide_eq_true running)]
  by_cases ended : new = .ended
  · rw [if_pos ended, if_neg (by simp [ended])]
    omega
  · rw [if_neg ended, if_pos (decide_eq_true ended)]
    omega

namespace Looping

/-- While a run is in progress the timer is not pending. -/
theorem alone (loops : Looping before) {index : Nat} {run : Run}
    (found : before.runs[index]? = some run) (running : run ≠ .ended) :
    before.active = 1 ∧ before.timer = false := by
  have positive : 0 < before.active :=
    List.countP_pos_iff.mpr ⟨run, List.mem_of_getElem? found, by simpa using running⟩
  have single := loops.single
  cases timer : before.timer with
  | false =>
      rw [timer, Bool.toNat_false] at single
      exact ⟨by omega, rfl⟩
  | true =>
      rw [timer, Bool.toNat_true] at single
      omega

theorem begin (loops : Looping before) (armed : before.timer = true) :
    Looping { before with timer := false }.begin := by
  have single := loops.single
  rw [armed, Bool.toNat_true] at single
  have none_active : before.runs.countP (· ≠ .ended) = 0 := by
    have : before.active = 0 := by omega
    exact this
  have one : ({ before with timer := false }.begin).active = 1 := by
    rw [State.active, State.begin, List.countP_append, none_active]
    rfl
  exact ⟨by rw [one]; exact Nat.le_refl 1, fun _ => by rw [Ticks, one]; rfl⟩

/-- The end of a run arms the timer, unless the scheduler is exiting. -/
theorem loop (loops : Looping before) {index : Nat} {run : Run}
    (found : before.runs[index]? = some run) (running : run ≠ .ended) :
    Looping (before.loop index) := by
  have none_active : (before.loop index).active = 0 := by
    have changed := active_set .ended found running
    rw [(loops.alone found running).1, if_pos rfl] at changed
    exact Nat.succ.inj changed
  constructor
  · rw [none_active, Nat.zero_add]
    exact Bool.toNat_le _
  · intro staying
    have armed : (before.loop index).timer = true := by
      rw [State.loop, Bool.not_eq_true']
      exact staying
    rw [Ticks, none_active, armed]
    rfl

/-- A run goes on. -/
theorem continues (loops : Looping before) {index : Nat} {old new : Run}
    (found : before.runs[index]? = some old) (running : old ≠ .ended) (stays : new ≠ .ended) :
    Looping { before with runs := before.runs.set index new } := by
  obtain ⟨one, unset⟩ := loops.alone found running
  have changed := active_set new found running
  rw [one, if_neg stays] at changed
  have same : Ticks { before with runs := before.runs.set index new } := by
    rw [Ticks, unset]
    exact Nat.succ.inj changed
  exact ⟨Nat.le_of_eq same, fun _ => same⟩

theorem queueScheduledJobs (loops : Looping before) {index : Nat}
    (found : before.runs[index]? = some .initializing) :
    Looping (before.queueScheduledJobs index) := by
  rw [State.queueScheduledJobs]
  split
  · exact loops.loop found (by simp)
  · split
    · exact loops.loop found (by simp)
    · exact loops.continues found (by simp) (by simp)

theorem publishNext (loops : Looping before) {index : Nat} {run : Run} (waiting : List String)
    (found : before.runs[index]? = some run) (running : run ≠ .ended) :
    Looping (before.publishNext index waiting) := by
  cases waiting with
  | nil =>
      have idle : Looping { before with processing := false, processingCount := 0 } :=
        ⟨loops.single, loops.ticks⟩
      exact idle.loop found running
  | cons item waiting => exact loops.continues found running (by simp)

theorem publishMessages (loops : Looping before) {index : Nat} (rows : List JobSet)
    (found : before.runs[index]? = some .fetching) :
    Looping (before.publishMessages tasks index rows) := by
  rw [State.publishMessages]
  split
  · exact loops.loop found (by simp)
  · have busy : Looping { before with processing := true, processingCount := rows.length } :=
      ⟨loops.single, loops.ticks⟩
    exact busy.publishNext _ found (by simp)

/-- A scheduler that exits is not required to go on. -/
theorem rejected (loops : Looping before) {index : Nat} {run : Run}
    (found : before.runs[index]? = some run) (running : run ≠ .ended)
    (exiting : before.exiting = true) :
    Looping { before with runs := before.runs.set index .ended } := by
  obtain ⟨one, unset⟩ := loops.alone found running
  have changed := active_set .ended found running
  rw [one, if_pos rfl] at changed
  constructor
  · rw [State.active, unset, Nat.succ.inj changed]
    exact Nat.zero_le 1
  · intro staying
    rw [exiting] at staying
    cases staying

theorem terminate (loops : Looping before) : Looping before.terminate := by
  have single : before.active ≤ 1 := Nat.le_trans (Nat.le_add_right _ _) loops.single
  rw [State.terminate]
  split
  · exact ⟨single, fun staying => Bool.noConfusion staying⟩
  · exact ⟨single, fun staying => Bool.noConfusion staying⟩

theorem checkCondition (loops : Looping before) (wait startTime : Nat) :
    Looping (before.checkCondition wait startTime) := by
  rw [State.checkCondition]
  split
  · exact ⟨loops.single, loops.ticks⟩
  · exact loops

/-- The loop goes on with every step if enqueue queries are answered. -/
theorem step {event : Event} (loops : Looping before) (other : event ≠ .runScheduledJobs)
    (initialised : before.runs ≠ [.initializing]) (answered : Answered before event)
    (stepped : (system tasks).step before event = some after) : Looping after := by
  cases move_of_step stepped with
  | elapse | pause | resume => exact ⟨loops.single, loops.ticks⟩
  | runScheduledJobs => exact absurd rfl other
  | tick armed => exact loops.begin armed
  | initialized found => exact loops.queueScheduledJobs found
  | @rejected index run found pending =>
      have running : run ≠ .ended := by rcases pending with rfl | rfl <;> simp
      exact loops.rejected found running (answered.resolve_right initialised)
  | fetched rows found => exact loops.publishMessages rows found
  | settled found => exact loops.publishNext _ found (by simp)
  | terminate => exact loops.terminate
  | checkCondition => exact loops.checkCondition _ _

end Looping

/-- What an event does to the runs: none changes, one is begun, or one goes on or ends. -/
theorem runs_step {event : Event} (stepped : (system tasks).step before event = some after) :
    after.runs = before.runs ∨ after.runs = before.runs ++ [.initializing] ∨
      ∃ index run, run ≠ .initializing ∧ after.runs = before.runs.set index run := by
  have looped : ∀ (state : State) index, (state.loop index).runs = state.runs.set index .ended :=
    fun _ _ => rfl
  have published : ∀ (state : State) index waiting, ∃ run, run ≠ .initializing ∧
      (state.publishNext index waiting).runs = state.runs.set index run := by
    intro state index waiting
    cases waiting with
    | nil => exact ⟨.ended, by simp, rfl⟩
    | cons item waiting => exact ⟨.publishing item waiting, by simp, rfl⟩
  cases move_of_step stepped with
  | elapse | pause | resume => exact .inl rfl
  | runScheduledJobs | tick => exact .inr (.inl rfl)
  | @initialized index =>
      rw [State.queueScheduledJobs]
      split
      · exact .inr (.inr ⟨index, .ended, by simp, looped before index⟩)
      · split
        · exact .inr (.inr ⟨index, .ended, by simp, looped before index⟩)
        · exact .inr (.inr ⟨index, .fetching, by simp, rfl⟩)
  | @rejected index => exact .inr (.inr ⟨index, .ended, by simp, rfl⟩)
  | @fetched index rows =>
      rw [State.publishMessages]
      split
      · exact .inr (.inr ⟨index, .ended, by simp, looped before index⟩)
      · obtain ⟨run, going, runs⟩ := published { before with
          processing := true, processingCount := rows.length } index (publishable tasks rows)
        exact .inr (.inr ⟨index, run, going, runs⟩)
  | @settled index item waiting =>
      obtain ⟨run, going, runs⟩ := published before index waiting
      exact .inr (.inr ⟨index, run, going, runs⟩)
  | terminate =>
      rw [State.terminate]
      split <;> exact .inl rfl
  | checkCondition =>
      rw [State.checkCondition]
      split <;> exact .inl rfl

/-- A scheduler whose first run has been initialised. -/
def Begun (state : State) : Prop := ∃ first rest, state.runs = first :: rest ∧ first ≠ .initializing

/-- The first run is initialised once. -/
theorem Begun.step {event : Event} (begun : Begun before)
    (stepped : (system tasks).step before event = some after) : Begun after := by
  obtain ⟨first, rest, runs, initialised⟩ := begun
  rcases runs_step stepped with same | appended | ⟨index, run, going, changed⟩
  · exact ⟨first, rest, same.trans runs, initialised⟩
  · exact ⟨first, rest ++ [.initializing], by rw [appended, runs, List.cons_append], initialised⟩
  · cases index with
    | zero => exact ⟨run, rest, by rw [changed, runs, List.set_cons_zero], going⟩
    | succ index => exact ⟨first, rest.set index run,
        by rw [changed, runs, List.set_cons_succ], initialised⟩

theorem Begun.ne_initializing (begun : Begun before) : before.runs ≠ [.initializing] := by
  obtain ⟨first, rest, runs, initialised⟩ := begun
  rw [runs]
  intro same
  exact initialised (List.cons.inj same).1

/-- A scheduler stays fresh until its first run has been initialised. -/
theorem Fresh.step {event : Event} (fresh : Fresh before) (once : event ≠ .runScheduledJobs)
    (pending : event ≠ .initialized 0)
    (stepped : (system tasks).step before event = some after) : Fresh after := by
  have only : ∀ index run, before.runs[index]? = some run → run ≠ .ended →
      index = 0 ∧ run = .initializing := by
    intro index run found running
    rcases fresh.first with first | first
    · rw [first, List.getElem?_singleton, Option.ite_none_right_eq_some] at found
      exact ⟨found.1, (Option.some.inj found.2).symm⟩
    · rw [first, List.getElem?_singleton, Option.ite_none_right_eq_some] at found
      exact absurd (Option.some.inj found.2).symm running
  cases move_of_step stepped with
  | elapse | pause | resume => exact ⟨fresh.unset, fresh.first⟩
  | runScheduledJobs => exact absurd rfl once
  | tick armed => cases fresh.unset.symm.trans armed
  | initialized found =>
      obtain ⟨rfl, -⟩ := only _ _ found (by simp)
      exact absurd rfl pending
  | @rejected index =>
      refine ⟨fresh.unset, ?_⟩
      cases index with
      | zero => rcases fresh.first with first | first <;> simp [first]
      | succ index =>
          rcases fresh.first with first | first
          · exact .inl (by rw [first, List.set_cons_succ, List.set_nil])
          · exact .inr (by rw [first, List.set_cons_succ, List.set_nil])
  | fetched rows found => cases (only _ _ found (by simp)).2
  | settled found => cases (only _ _ found (by simp)).2
  | terminate =>
      rw [State.terminate]
      split <;> exact ⟨rfl, fresh.first⟩
  | checkCondition =>
      rw [State.checkCondition]
      split <;> exact ⟨fresh.unset, fresh.first⟩

/-- The first run enters the loop when it has been initialised. -/
theorem Fresh.initialized (fresh : Fresh before)
    (stepped : (system tasks).step before (.initialized 0) = some after) :
    Looping after ∧ Begun after := by
  simp only [system, Termination.step] at stepped
  split at stepped
  · rename_i found
    have runs : before.runs = [.initializing] := by
      rcases fresh.first with first | first
      · exact first
      · rw [first] at found
        cases found
    have ticks : Ticks before := by
      rw [Ticks, State.active, runs, fresh.unset]
      rfl
    have loops : Looping before := ⟨Nat.le_of_eq ticks, fun _ => ticks⟩
    obtain rfl := Option.some.inj stepped
    refine ⟨loops.queueScheduledJobs found, ?_⟩
    rw [State.queueScheduledJobs]
    split
    · exact ⟨.ended, [], by rw [State.loop, runs, List.set_cons_zero], by simp⟩
    · split
      · exact ⟨.ended, [], by rw [State.loop, runs, List.set_cons_zero], by simp⟩
      · exact ⟨.fetching, [], by rw [runs, List.set_cons_zero], by simp⟩
  · contradiction

/-- A rejected enqueue query of a scheduler that is not exiting stops the loop. -/
theorem Looping.answered_of_ticks {event : Event} (loops : Looping before)
    (stepped : (system tasks).step before event = some after)
    (ticks : after.exiting = false → Ticks after) : Answered before event := by
  cases move_of_step stepped with
  | @rejected index run found pending =>
      have running : run ≠ .ended := by rcases pending with rfl | rfl <;> simp
      refine .inl (Bool.of_not_eq_false fun staying => ?_)
      have ticking := ticks staying
      obtain ⟨one, unset⟩ := loops.alone found running
      have changed := active_set .ended found running
      rw [one, if_pos rfl] at changed
      rw [Ticks, State.active, unset, Nat.succ.inj changed] at ticking
      cases ticking
  | elapse | pause | resume | runScheduledJobs | tick | initialized | fetched | settled | terminate
  | checkCondition => trivial

/-- The initialisation of the first run may be rejected. -/
theorem Fresh.answered {event : Event} (fresh : Fresh before)
    (stepped : (system tasks).step before event = some after) : Answered before event := by
  cases move_of_step stepped with
  | rejected found pending =>
      refine .inr (fresh.first.resolve_right fun ended => ?_)
      rw [ended, List.getElem?_singleton, Option.ite_none_right_eq_some] at found
      obtain rfl := Option.some.inj found.2
      rcases pending with pending | pending <;> cases pending
  | elapse | pause | resume | runScheduledJobs | tick | initialized | fetched | settled | terminate
  | checkCondition => trivial

end Steps

section Runs

variable {tasks : List String} {state final : State} {events : List Event}

/-- After its initialisation a scheduler keeps ticking exactly as long as its queries are
answered. -/
theorem Looping.ticks_iff (loops : Looping state) (begun : Begun state)
    (once : .runScheduledJobs ∉ events) (execution : (system tasks).run events state = some final) :
    (∀ earlier reached, earlier <+: events → (system tasks).run earlier state = some reached →
        reached.exiting = false → Ticks reached) ↔
      (system tasks).Along Answered events state := by
  induction events generalizing state with
  | nil =>
      refine ⟨fun _ => trivial, fun _ earlier reached shorter run staying => ?_⟩
      obtain rfl := List.prefix_nil.mp shorter
      obtain rfl := Option.some.inj run
      exact loops.ticks staying
  | cons event events induction =>
      obtain ⟨next, stepped, rest⟩ := Option.bind_eq_some_iff.mp execution
      obtain ⟨other, not_later⟩ := List.ne_and_not_mem_of_not_mem_cons once
      have run_tail : ∀ earlier,
          (system tasks).run (event :: earlier) state = (system tasks).run earlier next := by
        intro earlier
        rw [System.run_cons, stepped, Option.bind_some]
      constructor
      · intro ticking
        have answered := loops.answered_of_ticks stepped
          (ticking [event] next (by simp) (by rw [run_tail, System.run_nil]))
        have continues := loops.step (Ne.symm other) begun.ne_initializing answered stepped
        refine ⟨answered, fun same steps => ?_⟩
        obtain rfl := Option.some.inj (stepped.symm.trans steps)
        refine (induction continues (begun.step stepped) not_later rest).mp ?_
        intro earlier reached shorter run
        exact ticking (event :: earlier) reached ((List.prefix_cons_inj event).mpr shorter)
          (by rw [run_tail, run])
      · rintro ⟨answered, along⟩ earlier reached shorter run staying
        have continues := loops.step (Ne.symm other) begun.ne_initializing answered stepped
        rcases List.prefix_cons_iff.mp shorter with rfl | ⟨later, rfl, within⟩
        · obtain rfl := Option.some.inj run
          exact loops.ticks staying
        · rw [run_tail] at run
          exact (induction continues (begun.step stepped) not_later rest).mpr (along next stepped)
            later reached within run staying

/-- Once a scheduler has been initialised it keeps ticking exactly as long as its queries are
answered. -/
theorem Fresh.ticks_iff (fresh : Fresh state) (once : .runScheduledJobs ∉ events)
    (execution : (system tasks).run events state = some final) :
    (∀ earlier reached, earlier <+: events → (system tasks).run earlier state = some reached →
        .initialized 0 ∈ earlier → reached.exiting = false → Ticks reached) ↔
      (system tasks).Along Answered events state := by
  induction events generalizing state with
  | nil =>
      refine ⟨fun _ => trivial, fun _ earlier reached shorter run initialised => ?_⟩
      obtain rfl := List.prefix_nil.mp shorter
      cases initialised
  | cons event events induction =>
      obtain ⟨next, stepped, rest⟩ := Option.bind_eq_some_iff.mp execution
      obtain ⟨other, not_later⟩ := List.ne_and_not_mem_of_not_mem_cons once
      have run_tail : ∀ earlier,
          (system tasks).run (event :: earlier) state = (system tasks).run earlier next := by
        intro earlier
        rw [System.run_cons, stepped, Option.bind_some]
      have along_tail : (system tasks).Along Answered (event :: events) state ↔
          (system tasks).Along Answered events next := by
        refine ⟨fun along => along.2 next stepped, fun along => ⟨fresh.answered stepped, ?_⟩⟩
        intro same steps
        obtain rfl := Option.some.inj (stepped.symm.trans steps)
        exact along
      have ticks_tail : (∀ earlier reached, earlier <+: event :: events →
            (system tasks).run earlier state = some reached → .initialized 0 ∈ earlier →
              reached.exiting = false → Ticks reached) ↔
          ∀ earlier reached, earlier <+: events → (system tasks).run earlier next = some reached →
            .initialized 0 ∈ event :: earlier → reached.exiting = false → Ticks reached := by
        constructor
        · intro ticking earlier reached shorter run
          exact ticking (event :: earlier) reached ((List.prefix_cons_inj event).mpr shorter)
            (by rw [run_tail, run])
        · intro ticking earlier reached shorter run initialised
          rcases List.prefix_cons_iff.mp shorter with rfl | ⟨later, rfl, within⟩
          · cases initialised
          · exact ticking later reached within ((run_tail later).symm.trans run) initialised
      rw [along_tail, ticks_tail]
      by_cases first : event = .initialized 0
      · subst first
        obtain ⟨loops, begun⟩ := fresh.initialized stepped
        simp only [List.mem_cons_self, forall_const]
        exact loops.ticks_iff begun not_later rest
      · simp only [List.mem_cons, Ne.symm first, false_or]
        exact induction (fresh.step (Ne.symm other) first stepped) not_later rest

/-- A scheduler does nothing before `runScheduledJobs` is called. -/
theorem idle_of_run {now : Nat} (called : .runScheduledJobs ∉ events)
    (execution : (system tasks).run events (.constructed now) = some state) :
    state.timer = false ∧ state.runs = [] := by
  have others : ∀ event ∈ events, event ≠ .runScheduledJobs :=
    fun event member same => called (same ▸ member)
  have along := (system tasks).along_of_forall others (.constructed now)
  have preserved : ∀ before event after, before.timer = false ∧ before.runs = [] →
      event ≠ .runScheduledJobs → (system tasks).step before event = some after →
        after.timer = false ∧ after.runs = [] := by
    rintro before event after ⟨unset, runs⟩ other stepped
    cases move_of_step stepped with
    | elapse | pause | resume => exact ⟨unset, runs⟩
    | runScheduledJobs => exact absurd rfl other
    | tick armed => cases unset.symm.trans armed
    | initialized found | rejected found | fetched _ found | settled found =>
        rw [runs] at found
        cases found
    | terminate =>
        rw [State.terminate]
        split <;> exact ⟨rfl, runs⟩
    | checkCondition =>
        rw [State.checkCondition]
        split <;> exact ⟨unset, runs⟩
  exact System.invariant_run preserved ⟨rfl, rfl⟩ along execution

end Runs

/-- After the one call of `runScheduledJobs` a scheduler that has been initialised keeps ticking
until it exits, exactly if none of its enqueue queries is rejected before. -/
theorem keeps_ticking_iff (tasks : List String) {now : Nat} {earlier later : List Event}
    {idle final : State} (before : .runScheduledJobs ∉ earlier)
    (waited : (system tasks).run earlier (.constructed now) = some idle)
    (once : .runScheduledJobs ∉ later)
    (execution : (system tasks).run (.runScheduledJobs :: later) idle = some final) :
    KeepsTicking tasks idle later ↔ (system tasks).Along Answered later idle.begin := by
  obtain ⟨unset, runs⟩ := idle_of_run before waited
  have fresh : Fresh idle.begin := ⟨unset, .inl (by rw [State.begin, runs, List.nil_append])⟩
  exact fresh.ticks_iff once execution

instance decidableAnswered (state : State) : ∀ event, Decidable (Answered state event)
  | .rejected _ =>
      inferInstanceAs (Decidable (state.exiting = true ∨ state.runs = [.initializing]))
  | .elapse _ | .pause | .resume | .runScheduledJobs | .tick | .initialized _ | .fetched _ _
  | .settled _ | .terminate | .checkCondition _ => isTrue trivial

/-- A scheduler that is paused, is resumed and publishes a batch whose task fails. -/
def resumedEvents : List Event :=
  [.initialized 0, .resume, .tick, .initialized 1, .fetched 1 oneBatch, .settled 1, .tick,
    .initialized 2]

theorem resumed_keeps_ticking :
    KeepsTicking ["report"] { State.constructed 0 with paused := true } resumedEvents := by
  have execution : ((system ["report"]).run (.runScheduledJobs :: resumedEvents)
      { State.constructed 0 with paused := true }).isSome = true := by decide
  obtain ⟨final, execution⟩ := Option.isSome_iff_exists.mp execution
  exact (keeps_ticking_iff ["report"] (show .runScheduledJobs ∉ [Event.pause] by decide) rfl
    (by decide) execution).mpr (by decide)

/-- After an enqueue query that the database rejects, no run is in progress and no timer is
pending. -/
theorem rejected_query_stops :
    ¬ ∀ events, .runScheduledJobs ∉ events → KeepsTicking ["report"] (.constructed 0) events := by
  intro keeps
  have ticks := keeps [.initialized 0, .rejected 0] (by decide) _ _ (List.prefix_refl _) rfl
    (by decide) rfl
  cases ticks

end Termination

end Steveo.Scheduler
