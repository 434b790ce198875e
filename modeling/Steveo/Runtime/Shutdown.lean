import Mathlib.Algebra.Order.Field.Rat
import Mathlib.Data.List.Nodup
import Steveo.Library.Execution
import Steveo.Runtime.Manager

/-!
# The shutdown of the manager

The manager asks the runners to terminate, looks every second whether they have, and terminates
them itself after a configured number of looks.  Then it drains the pools, stops the producer and
tells the listeners.  Others may set the state of the manager at any time.
-/

namespace Steveo

namespace Manager

/-! ## How often the manager looks -/

/-- A number of the host language. -/
inductive Number
  | nan
  | infinity (negative : Bool)
  | finite (value : ℚ)

/-- Whether a number counts as true. -/
def Number.truthy : Number → Bool
  | nan => false
  | infinity _ => true
  | finite value => value ≠ 0

/-- The number in the configuration of an instance; `none` is undefined. -/
def terminationWaitCount (configured : Option Number) : Number := configured.getD (.finite 180)

/-- The count at which the manager stops waiting. -/
def tries (configured : Option Number) : Number :=
  let count := terminationWaitCount configured
  if count.truthy then count else .finite 180

/-- Whether a count equals a number. -/
def reached (count : Nat) : Number → Bool
  | .finite value => value = count
  | _ => false

/-- The next count; beyond 2 ^ 53 adding one does not change a number any more. -/
def increment (count : Nat) : Nat := if count < 2 ^ 53 then count + 1 else count

/-! ## The shutdown -/

/-- What a shutdown does to others. -/
inductive Call
  | sleep
  | drain (pool : Nat)
  | clear (pool : Nat)
  | stop
  | terminate
  deriving DecidableEq

/-- How far a shutdown has come with a pool. -/
inductive PoolStage
  | draining
  | clearing
  | settled
  deriving DecidableEq

/-- What a shutdown waits for. -/
inductive Stage
  | sleeping
  | draining (pools : List PoolStage)
  | stopping
  | finished

/-- A shutdown in progress, and the state of the manager. -/
structure Shutdown where
  state : RunnerState
  stage : Stage
  count : Nat
  /-- The state in which the loop has ended. -/
  ended : Option RunnerState
  /-- How much every pool had lent when the loop ended. -/
  borrowed : List Nat
  calls : List Call

/-- What a shutdown waits for happens, or someone sets the state. -/
inductive Event
  /-- A second has passed, and the pools of the process have lent so much. -/
  | wake (borrowed : List Nat)
  | drained (pool : Nat) (fulfilled : Bool)
  | cleared (pool : Nat) (fulfilled : Bool)
  | stopped
  | change (state : RunnerState)

/-- Whether an event is what a shutdown waits for. -/
def Event.answers : Event → Bool
  | change _ => false
  | _ => true

/-- What is done once the pools have settled. -/
def Stage.closing : Stage → List Call
  | sleeping | draining _ => []
  | stopping => [.stop]
  | finished => [.stop, .terminate]

/-- How much a pool still takes. -/
def PoolStage.work : PoolStage → Nat
  | draining => 2
  | clearing => 1
  | settled => 0

/-- How much is still to be done once the loop has ended. -/
def Stage.work : Stage → Nat
  | sleeping => 0
  | draining pools => (pools.map PoolStage.work).sum + 2
  | stopping => 1
  | finished => 0

/-- The pools that have lent something. -/
def lenders (borrowed : List Nat) : List Nat :=
  (List.range borrowed.length).filter fun pool => 0 < borrowed.getD pool 0

namespace Shutdown

/-- Stop the producer when every pool has settled. -/
def proceed (shutdown : Shutdown) : Shutdown :=
  match shutdown.stage with
  | .draining pools =>
      if pools.all fun pool => pool = .settled then
        { shutdown with
          stage := .stopping
          calls := shutdown.calls ++ [.stop] }
      else shutdown
  | _ => shutdown

/-- Leave the loop and drain the pools that have lent something. -/
def leave (borrowed : List Nat) (shutdown : Shutdown) : Shutdown :=
  proceed { shutdown with
    stage := .draining (borrowed.map fun lent => if 0 < lent then .draining else .settled)
    ended := some shutdown.state
    borrowed
    calls := shutdown.calls ++ (lenders borrowed).map .drain }

/-- Look whether the runners have terminated. -/
def look (tries : Number) (borrowed : List Nat) (shutdown : Shutdown) : Shutdown :=
  if shutdown.state = .terminated then leave borrowed shutdown
  else if reached shutdown.count tries then
    leave borrowed { shutdown with state := .terminated }
  else
    { shutdown with
      stage := .sleeping
      calls := shutdown.calls ++ [.sleep] }

/-- The beginning of a shutdown. -/
def begin (tries : Number) (state : RunnerState) (borrowed : List Nat) : Shutdown :=
  look tries borrowed
    { state := if state = .running ∨ state = .paused then .terminating else state
      stage := .sleeping
      count := 0
      ended := none
      borrowed := []
      calls := [] }

/-- A pool has settled. -/
def settle (pools : List PoolStage) (pool : Nat) (shutdown : Shutdown) : Shutdown :=
  proceed { shutdown with stage := .draining (pools.set pool .settled) }

/-- The shutdowns that give up at a count. -/
def system (tries : Number) : System Shutdown Event where
  step shutdown
    | .wake borrowed =>
        match shutdown.stage with
        | .sleeping =>
            some (look tries borrowed { shutdown with count := increment shutdown.count })
        | _ => none
    | .drained pool fulfilled =>
        match shutdown.stage with
        | .draining pools =>
            match pools[pool]?, fulfilled with
            | some .draining, true => some { shutdown with
                stage := .draining (pools.set pool .clearing)
                calls := shutdown.calls ++ [.clear pool] }
            | some .draining, false => some (settle pools pool shutdown)
            | _, _ => none
        | _ => none
    | .cleared pool _ =>
        match shutdown.stage with
        | .draining pools =>
            match pools[pool]? with
            | some .clearing => some (settle pools pool shutdown)
            | _ => none
        | _ => none
    | .stopped =>
        match shutdown.stage with
        | .stopping => some { shutdown with
            stage := .finished
            calls := shutdown.calls ++ [.terminate] }
        | _ => none
    | .change state => some { shutdown with state }

/-! ## What a shutdown is for -/

/-- A shutdown sleeps no more often than the bound says, leaves its loop with a terminated manager,
and drains the pools, stops the producer and tells the listeners, each once and in this order. -/
structure Finishing (tries : Number) (bound : Nat) (shutdown : Shutdown) : Prop where
  bounded : shutdown.calls.count .sleep ≤ bound
  terminated : shutdown.stage ≠ .sleeping → shutdown.ended = some .terminated
  /-- A pool that has lent something is drained, and if that succeeds it is cleared. -/
  ordered : ∃ (sleeps : Nat) (cleared : List Nat), cleared.Nodup ∧
    (∀ pool ∈ cleared, pool ∈ lenders shutdown.borrowed) ∧
    shutdown.calls = List.replicate sleeps .sleep ++ (lenders shutdown.borrowed).map .drain ++
      cleared.map .clear ++ shutdown.stage.closing
  /-- Until it has finished, it waits for something. -/
  awaiting : shutdown.stage ≠ .finished → ∃ event, event.answers = true ∧
    ((system tries).step shutdown event).isSome = true
  /-- Out of the loop, whatever it waits for brings it nearer to the end. -/
  nearer : shutdown.stage ≠ .sleeping → ∀ event after,
    (system tries).step shutdown event = some after → after.stage ≠ .sleeping ∧
      after.stage.work + (if event.answers then 1 else 0) ≤ shutdown.stage.work

end Shutdown

open Shutdown

/-- Whatever happens meanwhile, every shutdown finishes, and how often it sleeps is bounded by the
configured number alone. -/
def Finishes (configured : Option Number) : Prop :=
  ∃ bound, ∀ state borrowed events final,
    (system (tries configured)).run events (begin (tries configured) state borrowed) = some final →
      Finishing (tries configured) bound final

/-- A number that the count comes to; zero and NaN stand for another one. -/
def Countable : Option Number → Prop
  | none | some .nan => True
  | some (.infinity _) => False
  | some (.finite value) => ∃ count : Nat, count ≤ 2 ^ 53 ∧ value = count

theorem tries_finite {value : ℚ} (nonzero : value ≠ 0) :
    tries (some (.finite value)) = .finite value := by
  simp [tries, terminationWaitCount, Number.truthy, nonzero]

theorem countable_iff (configured : Option Number) :
    Countable configured ↔ ∃ count : Nat, count ≤ 2 ^ 53 ∧ tries configured = .finite count := by
  have standard : (180 : ℚ) = (180 : ℕ) := Nat.cast_ofNat.symm
  cases configured with
  | none => exact iff_of_true trivial ⟨180, by decide, congrArg Number.finite standard⟩
  | some value =>
      cases value with
      | nan => exact iff_of_true trivial ⟨180, by decide, congrArg Number.finite standard⟩
      | infinity negative =>
          refine iff_of_false id ?_
          rintro ⟨count, -, same⟩
          cases same
      | finite value =>
          by_cases zero : value = 0
          · refine iff_of_true ⟨0, Nat.zero_le _, by simp [zero]⟩ ⟨180, by decide, ?_⟩
            simp [tries, terminationWaitCount, Number.truthy, zero]
          · rw [tries_finite zero]
            simp [Countable]

/-! ## What the parts do -/

namespace Shutdown

variable {tries : Number} {bound sleeps : Nat} {cleared : List Nat} {shutdown after : Shutdown}

/-- What an event can do to a shutdown. -/
inductive Effect (tries : Number) (shutdown : Shutdown) : Event → Shutdown → Prop
  | wake (borrowed : List Nat) (sleeping : shutdown.stage = .sleeping) :
      Effect tries shutdown (.wake borrowed)
        (look tries borrowed { shutdown with count := increment shutdown.count })
  | drained {pools : List PoolStage} {pool : Nat} (stage : shutdown.stage = .draining pools)
      (found : pools[pool]? = some .draining) :
      Effect tries shutdown (.drained pool true) { shutdown with
        stage := .draining (pools.set pool .clearing)
        calls := shutdown.calls ++ [.clear pool] }
  | settled {pools : List PoolStage} {pool : Nat} {before : PoolStage} {event : Event}
      (stage : shutdown.stage = .draining pools) (found : pools[pool]? = some before)
      (unsettled : before ≠ .settled) (answers : event.answers = true) :
      Effect tries shutdown event (settle pools pool shutdown)
  | stopped (stage : shutdown.stage = .stopping) :
      Effect tries shutdown .stopped { shutdown with
        stage := .finished
        calls := shutdown.calls ++ [.terminate] }
  | change (state : RunnerState) : Effect tries shutdown (.change state) { shutdown with state }

theorem effect_of_step {event : Event}
    (happens : (system tries).step shutdown event = some after) :
    Effect tries shutdown event after := by
  cases event with
  | wake borrowed =>
      simp only [system] at happens
      split at happens
      · rename_i sleeping
        obtain rfl := Option.some.inj happens
        exact .wake borrowed sleeping
      · cases happens
  | drained pool fulfilled =>
      simp only [system] at happens
      split at happens
      · rename_i pools stage
        split at happens
        · rename_i found
          obtain rfl := Option.some.inj happens
          exact .drained stage found
        · rename_i found
          obtain rfl := Option.some.inj happens
          exact .settled stage found PoolStage.noConfusion rfl
        · cases happens
      · cases happens
  | cleared pool fulfilled =>
      simp only [system] at happens
      split at happens
      · rename_i pools stage
        split at happens
        · rename_i found
          obtain rfl := Option.some.inj happens
          exact .settled stage found PoolStage.noConfusion rfl
        · cases happens
      · cases happens
  | stopped =>
      simp only [system] at happens
      split at happens
      · rename_i stage
        obtain rfl := Option.some.inj happens
        exact .stopped stage
      · cases happens
  | change state =>
      obtain rfl := Option.some.inj happens
      exact .change state

/-- The loop goes on. -/
structure Waits (bound : Nat) (shutdown : Shutdown) : Prop where
  stage : shutdown.stage = .sleeping
  counted : shutdown.count < bound
  borrowed : shutdown.borrowed = []
  calls : shutdown.calls = List.replicate (shutdown.count + 1) .sleep

/-- The loop has been left after some sleeps, and some pools have been cleared. -/
structure Leaves (sleeps : Nat) (cleared : List Nat) (shutdown : Shutdown) : Prop where
  stage : shutdown.stage ≠ .sleeping
  ended : shutdown.ended = some .terminated
  distinct : cleared.Nodup
  lent : ∀ pool ∈ cleared, pool ∈ lenders shutdown.borrowed
  calls : shutdown.calls = List.replicate sleeps .sleep ++
    (lenders shutdown.borrowed).map .drain ++ cleared.map .clear ++ shutdown.stage.closing
  draining : ∀ pools, shutdown.stage = .draining pools → ∀ pool : Nat,
    pools[pool]? = some .draining → pool ∈ lenders shutdown.borrowed ∧ pool ∉ cleared

/-- While pools are drained, one of them has not settled. -/
def Pending (shutdown : Shutdown) : Prop :=
  ∀ pools, shutdown.stage = .draining pools → ∃ pool ∈ pools, pool ≠ .settled

theorem pending_proceed (shutdown : Shutdown) : Pending (proceed shutdown) := by
  intro pools draining
  rw [proceed] at draining
  split at draining
  · rename_i pools' stage
    split at draining
    · cases draining
    · rename_i unsettled
      rw [stage] at draining
      obtain rfl := Stage.draining.inj draining
      simpa using unsettled
  · rename_i other
    exact absurd draining (other pools)

/-- Going on from the pools adds no call but that of the producer. -/
theorem Leaves.proceed (leaves : Leaves sleeps cleared shutdown) :
    Leaves sleeps cleared (proceed shutdown) := by
  rw [Shutdown.proceed]
  split
  · rename_i pools stage
    split
    · refine ⟨Stage.noConfusion, leaves.ended, leaves.distinct, leaves.lent, ?_, ?_⟩
      · rw [leaves.calls, stage, Stage.closing, List.append_nil]
        rfl
      · exact fun pools' draining => Stage.noConfusion draining
    · exact leaves
  · exact leaves

theorem mem_lenders {borrowed : List Nat} {pool lent : Nat} (found : borrowed[pool]? = some lent)
    (positive : 0 < lent) : pool ∈ lenders borrowed := by
  obtain ⟨within, -⟩ := List.getElem?_eq_some_iff.mp found
  rw [lenders, List.mem_filter, List.mem_range, List.getD_eq_getElem?_getD, found]
  exact ⟨within, decide_eq_true positive⟩

/-- The loop is left with a terminated manager. -/
theorem leaves_leave {borrowed : List Nat} (terminated : shutdown.state = .terminated)
    (calls : shutdown.calls = List.replicate sleeps .sleep) :
    Leaves sleeps [] (leave borrowed shutdown) := by
  refine Leaves.proceed ⟨Stage.noConfusion, ?_, List.nodup_nil, ?_, ?_, ?_⟩
  · exact congrArg some terminated
  · exact fun pool member => absurd member List.not_mem_nil
  · simp [calls, Stage.closing]
  · intro pools draining pool found
    obtain rfl := Stage.draining.inj draining
    rw [List.getElem?_map] at found
    obtain ⟨lent, at_pool, lends⟩ := Option.map_eq_some_iff.mp found
    refine ⟨mem_lenders at_pool ?_, List.not_mem_nil⟩
    by_contra none
    rw [if_neg none] at lends
    cases lends

/-- The shutdown waits in its loop, or has left it after no more sleeps than the bound says. -/
def Sound (bound : Nat) (shutdown : Shutdown) : Prop :=
  Waits bound shutdown ∨
    Pending shutdown ∧ ∃ sleeps ≤ bound, ∃ cleared, Leaves sleeps cleared shutdown

theorem pending_leave (borrowed : List Nat) (shutdown : Shutdown) :
    Pending (leave borrowed shutdown) := pending_proceed _

/-- Looking at the condition of the loop either leaves it or sleeps once more. -/
theorem sound_look {count : Nat} (countable : tries = .finite bound) (within : count ≤ bound)
    (borrowed : List Nat) (counted : shutdown.count = count) (none_yet : shutdown.borrowed = [])
    (calls : shutdown.calls = List.replicate count .sleep) :
    Sound bound (look tries borrowed shutdown) := by
  rw [look]
  split
  · rename_i terminated
    exact Or.inr ⟨pending_leave _ _, count, within, [], leaves_leave terminated calls⟩
  · split
    · exact Or.inr ⟨pending_leave _ _, count, within, [], leaves_leave rfl calls⟩
    · rename_i unreached
      refine Or.inl ⟨rfl, ?_, none_yet, ?_⟩
      · refine lt_of_le_of_ne (counted ▸ within) fun same => unreached ?_
        rw [countable, reached]
        exact decide_eq_true (congrArg Nat.cast same.symm)
      · dsimp only
        rw [calls, counted, List.replicate_succ']

theorem sound_begin (countable : tries = .finite bound) (state : RunnerState)
    (borrowed : List Nat) : Sound bound (begin tries state borrowed) :=
  sound_look countable (Nat.zero_le _) borrowed rfl rfl rfl

/-- A pool that is drained still is not the one that has gone on. -/
theorem draining_of_set {pools : List PoolStage} {pool other : Nat} {stage : PoolStage}
    (further : stage ≠ .draining) (found : (pools.set pool stage)[other]? = some .draining) :
    pool ≠ other ∧ pools[other]? = some .draining := by
  by_cases same : pool = other
  · rw [List.getElem?_set, if_pos same] at found
    split at found
    · exact absurd (Option.some.inj found) further
    · cases found
  · rw [List.getElem?_set_ne same] at found
    exact ⟨same, found⟩

/-- A pool that settles leaves the others as they are. -/
theorem Leaves.settle (leaves : Leaves sleeps cleared shutdown) {pools : List PoolStage}
    (stage : shutdown.stage = .draining pools) (pool : Nat) :
    Leaves sleeps cleared (settle pools pool shutdown) := by
  refine Leaves.proceed ⟨Stage.noConfusion, leaves.ended, leaves.distinct, leaves.lent, ?_, ?_⟩
  · rw [leaves.calls, stage]
    rfl
  · intro pools' draining other found
    obtain rfl := Stage.draining.inj draining
    exact leaves.draining pools stage other (draining_of_set PoolStage.noConfusion found).2

/-- A pool that has been drained is cleared. -/
theorem Leaves.clear (leaves : Leaves sleeps cleared shutdown) {pools : List PoolStage}
    (stage : shutdown.stage = .draining pools) {pool : Nat}
    (found : pools[pool]? = some .draining) :
    Leaves sleeps (cleared ++ [pool]) { shutdown with
      stage := .draining (pools.set pool .clearing)
      calls := shutdown.calls ++ [.clear pool] } := by
  obtain ⟨lends, fresh⟩ := leaves.draining pools stage pool found
  refine ⟨Stage.noConfusion, leaves.ended, ?_, ?_, ?_, ?_⟩
  · rw [← List.concat_eq_append]
    exact List.Nodup.concat fresh leaves.distinct
  · intro other member
    rcases List.mem_append.mp member with before | last
    · exact leaves.lent other before
    · rw [List.mem_singleton.mp last]
      exact lends
  · rw [leaves.calls, stage]
    simp [Stage.closing]
  · intro pools' draining other at_other
    obtain rfl := Stage.draining.inj draining
    obtain ⟨apart, still⟩ := draining_of_set PoolStage.noConfusion at_other
    obtain ⟨lends', fresh'⟩ := leaves.draining pools stage other still
    refine ⟨lends', fun member => ?_⟩
    rcases List.mem_append.mp member with before | last
    · exact fresh' before
    · exact apart (List.mem_singleton.mp last).symm

theorem Leaves.finish (leaves : Leaves sleeps cleared shutdown)
    (stage : shutdown.stage = .stopping) :
    Leaves sleeps cleared { shutdown with
      stage := .finished
      calls := shutdown.calls ++ [.terminate] } := by
  refine ⟨Stage.noConfusion, leaves.ended, leaves.distinct, leaves.lent, ?_, ?_⟩
  · rw [leaves.calls, stage]
    simp [Stage.closing]
  · exact fun pools draining => Stage.noConfusion draining

/-- Nothing that can happen breaks the bound or the order. -/
theorem Sound.step {count : Nat} (countable : tries = .finite count) (within : count ≤ 2 ^ 53)
    (sound : Sound count shutdown) {event : Event}
    (happens : (system tries).step shutdown event = some after) : Sound count after := by
  have left_of : shutdown.stage ≠ .sleeping →
      ∃ sleeps ≤ count, ∃ cleared, Leaves sleeps cleared shutdown := by
    intro out
    rcases sound with waits | ⟨-, left⟩
    · exact absurd waits.stage out
    · exact left
  cases effect_of_step happens with
  | wake borrowed sleeping =>
      rcases sound with waits | ⟨-, sleeps, -, cleared, leaves⟩
      · have below : shutdown.count < 2 ^ 53 := lt_of_lt_of_le waits.counted within
        exact sound_look countable waits.counted borrowed (if_pos below) waits.borrowed waits.calls
      · exact absurd sleeping leaves.stage
  | @drained pools pool stage found =>
      obtain ⟨sleeps, few, cleared, leaves⟩ := left_of (by rw [stage]; exact Stage.noConfusion)
      refine Or.inr ⟨?_, sleeps, few, _, leaves.clear stage found⟩
      intro pools' draining
      obtain rfl := Stage.draining.inj draining
      obtain ⟨bound, -⟩ := List.getElem?_eq_some_iff.mp found
      exact ⟨.clearing, List.mem_set bound _, PoolStage.noConfusion⟩
  | @settled pools pool before _ stage found unsettled answers =>
      obtain ⟨sleeps, few, cleared, leaves⟩ := left_of (by rw [stage]; exact Stage.noConfusion)
      exact Or.inr ⟨pending_proceed _, sleeps, few, cleared, leaves.settle stage pool⟩
  | stopped stage =>
      obtain ⟨sleeps, few, cleared, leaves⟩ := left_of (by rw [stage]; exact Stage.noConfusion)
      refine Or.inr ⟨?_, sleeps, few, cleared, leaves.finish stage⟩
      exact fun pools draining => Stage.noConfusion draining
  | change state =>
      rcases sound with ⟨stage, counted, borrowed, calls⟩ | ⟨pending, sleeps, few, cleared, leaves⟩
      · exact Or.inl ⟨stage, counted, borrowed, calls⟩
      · obtain ⟨stage, ended, distinct, lent, calls, draining⟩ := leaves
        exact Or.inr ⟨pending, sleeps, few, cleared, stage, ended, distinct, lent, calls, draining⟩

/-! ## Progress -/

theorem sum_work_set {pools : List PoolStage} {pool : Nat} {before : PoolStage}
    (found : pools[pool]? = some before) (further : PoolStage) :
    ((pools.set pool further).map PoolStage.work).sum + before.work =
      (pools.map PoolStage.work).sum + further.work := by
  induction pools generalizing pool with
  | nil => cases found
  | cons first pools ih =>
      cases pool with
      | zero =>
          obtain rfl : first = before := Option.some.inj found
          simp only [List.set_cons_zero, List.map_cons, List.sum_cons]
          omega
      | succ pool =>
          have rest := ih (List.getElem?_cons_succ ▸ found)
          simp only [List.set_cons_succ, List.map_cons, List.sum_cons]
          omega

theorem work_proceed (shutdown : Shutdown) :
    (proceed shutdown).stage.work ≤ shutdown.stage.work ∧
      (shutdown.stage ≠ .sleeping → (proceed shutdown).stage ≠ .sleeping) := by
  rw [proceed]
  split
  · rename_i pools stage
    split
    · rw [stage]
      exact ⟨by simp only [Stage.work]; omega, fun _ => Stage.noConfusion⟩
    · exact ⟨le_rfl, id⟩
  · exact ⟨le_rfl, id⟩

theorem work_settle {pools : List PoolStage} (stage : shutdown.stage = .draining pools) {pool : Nat}
    {before : PoolStage} (found : pools[pool]? = some before) (unsettled : before ≠ .settled) :
    (settle pools pool shutdown).stage ≠ .sleeping ∧
      (settle pools pool shutdown).stage.work + 1 ≤ shutdown.stage.work := by
  obtain ⟨less, out⟩ := work_proceed { shutdown with stage := .draining (pools.set pool .settled) }
  refine ⟨out Stage.noConfusion, ?_⟩
  have moved := sum_work_set found .settled
  have positive : 0 < before.work := by
    cases before with
    | draining => exact Nat.two_pos
    | clearing => exact Nat.one_pos
    | settled => exact absurd rfl unsettled
  change _ ≤ ((pools.set pool .settled).map PoolStage.work).sum + 2 at less
  change _ = _ + 0 at moved
  have start : shutdown.stage.work = (pools.map PoolStage.work).sum + 2 := by
    rw [stage]
    rfl
  rw [start]
  change (proceed _).stage.work + 1 ≤ _
  omega

/-- Out of the loop, whatever a shutdown waits for brings it nearer to the end. -/
theorem nearer_step (out : shutdown.stage ≠ .sleeping) {event : Event}
    (happens : (system tries).step shutdown event = some after) :
    after.stage ≠ .sleeping ∧
      after.stage.work + (if event.answers then 1 else 0) ≤ shutdown.stage.work := by
  cases effect_of_step happens with
  | wake borrowed sleeping => exact absurd sleeping out
  | @drained pools pool stage found =>
      have moved := sum_work_set found .clearing
      refine ⟨Stage.noConfusion, ?_⟩
      rw [stage]
      simp only [Stage.work, PoolStage.work, Event.answers, if_true] at moved ⊢
      omega
  | @settled pools pool before _ stage found unsettled answers =>
      rw [if_pos answers]
      exact work_settle stage found unsettled
  | stopped stage =>
      rw [stage]
      exact ⟨Stage.noConfusion, le_rfl⟩
  | change state => exact ⟨out, le_rfl⟩

/-- A shutdown that has not finished waits for something. -/
theorem awaiting_of_pending (tries : Number) (pending : Pending shutdown)
    (unfinished : shutdown.stage ≠ .finished) :
    ∃ event, event.answers = true ∧ ((system tries).step shutdown event).isSome = true := by
  cases stage : shutdown.stage with
  | sleeping => exact ⟨.wake [], rfl, by simp [system, stage]⟩
  | draining pools =>
      obtain ⟨poolStage, member, unsettled⟩ := pending pools stage
      obtain ⟨pool, found⟩ := List.mem_iff_getElem?.mp member
      cases poolStage with
      | draining => exact ⟨.drained pool true, rfl, by simp [system, stage, found]⟩
      | clearing => exact ⟨.cleared pool true, rfl, by simp [system, stage, found]⟩
      | settled => exact absurd rfl unsettled
  | stopping => exact ⟨.stopped, rfl, by simp [system, stage]⟩
  | finished => exact absurd stage unfinished

theorem Sound.finishing {bound : Nat} (tries : Number) (sound : Sound bound shutdown) :
    Finishing tries bound shutdown := by
  rcases sound with waits | ⟨pending, sleeps, few, cleared, leaves⟩
  · refine ⟨?_, fun out => absurd waits.stage out, ?_, ?_, fun out => absurd waits.stage out⟩
    · rw [waits.calls, List.count_replicate_self]
      exact waits.counted
    · refine ⟨shutdown.count + 1, [], List.nodup_nil, fun pool member => ?_, ?_⟩
      · cases member
      · rw [waits.calls, waits.borrowed, waits.stage]
        simp [lenders, Stage.closing]
    · refine awaiting_of_pending tries fun pools draining => ?_
      cases waits.stage.symm.trans draining
  · refine ⟨?_, fun _ => leaves.ended,
      ⟨sleeps, cleared, leaves.distinct, leaves.lent, leaves.calls⟩,
      awaiting_of_pending tries pending, fun out event after happens => nearer_step out happens⟩
    have drains : ((lenders shutdown.borrowed).map Call.drain).count .sleep = 0 :=
      List.count_eq_zero.mpr (by simp)
    have clears : (cleared.map Call.clear).count .sleep = 0 :=
      List.count_eq_zero.mpr (by simp)
    have closing : shutdown.stage.closing.count .sleep = 0 := by
      cases shutdown.stage <;> rfl
    rw [leaves.calls, List.count_append, List.count_append, List.count_append, drains, clears,
      closing, List.count_replicate_self]
    exact few

/-! ## A count that is never reached -/

theorem look_sleeps (running : shutdown.state ≠ .terminated)
    (unreached : reached shutdown.count tries = false) (borrowed : List Nat) :
    look tries borrowed shutdown =
      { shutdown with
        stage := .sleeping
        calls := shutdown.calls ++ [.sleep] } := by
  rw [look, if_neg running, if_neg (Bool.eq_false_iff.mp unreached)]

/-- A shutdown of instances without pools that has slept so many times. -/
def asleep (count sleeps : Nat) : Shutdown :=
  ⟨.terminating, .sleeping, count, none, [], List.replicate sleeps .sleep⟩

/-- A shutdown goes on sleeping if its count never equals the number. -/
theorem sleeps_on (never : ∀ count ≤ 2 ^ 53, reached count tries = false) (more : Nat)
    {count : Nat} (within : count ≤ 2 ^ 53) (sleeps : Nat) :
    ∃ count', (system tries).run (List.replicate more (.wake [])) (asleep count sleeps) =
      some (asleep count' (sleeps + more)) := by
  induction more generalizing count sleeps with
  | zero => exact ⟨count, rfl⟩
  | succ more ih =>
      have within' : increment count ≤ 2 ^ 53 := by
        rw [increment]
        split <;> omega
      have slept : (system tries).step (asleep count sleeps) (.wake []) =
          some (asleep (increment count) (sleeps + 1)) := by
        change some (look tries [] { asleep count sleeps with count := increment count }) = _
        rw [look_sleeps RunnerState.noConfusion (never _ within')]
        simp [asleep, List.replicate_succ']
      obtain ⟨count', run⟩ := ih within' (sleeps + 1)
      refine ⟨count', ?_⟩
      rw [List.replicate_succ, System.run_cons, slept, Option.bind_some, run, Nat.add_right_comm]
      rfl

end Shutdown

/-- Where the count never equals the number, no bound holds. -/
theorem not_finishes {configured : Option Number}
    (never : ∀ count ≤ 2 ^ 53, reached count (tries configured) = false) :
    ¬ Finishes configured := by
  rintro ⟨bound, finishing⟩
  have begun : begin (tries configured) .running [] = asleep 0 1 :=
    look_sleeps (show (asleep 0 0).state ≠ .terminated from RunnerState.noConfusion)
      (never 0 (Nat.zero_le _)) []
  obtain ⟨count, run⟩ := sleeps_on never bound (Nat.zero_le _) 1
  rw [← begun] at run
  have bounded := (finishing _ _ _ _ run).bounded
  rw [asleep, List.count_replicate_self] at bounded
  omega

/-- Every shutdown finishes exactly if the count comes to the configured number. -/
theorem finishes_iff_countable (configured : Option Number) :
    Finishes configured ↔ Countable configured := by
  rw [countable_iff]
  constructor
  · intro finishes
    by_contra uncountable
    refine not_finishes (fun count within => ?_) finishes
    by_contra reaches
    rw [Bool.not_eq_false] at reaches
    cases number : tries configured with
    | nan =>
        rw [number] at reaches
        cases reaches
    | infinity negative =>
        rw [number] at reaches
        cases reaches
    | finite value =>
        rw [number] at reaches
        exact uncountable ⟨count, within, by rw [number, of_decide_eq_true reaches]⟩
  · rintro ⟨count, within, countable⟩
    refine ⟨count, fun state borrowed events final run => Sound.finishing _ ?_⟩
    exact System.invariant_of_run (fun _ _ _ sound happens => sound.step countable within happens)
      (sound_begin countable state borrowed) run

/-- A negative number, a fraction and infinity are never reached. -/
theorem waits_forever :
    ¬ Finishes (some (.finite (-1))) ∧ ¬ Finishes (some (.finite (1 / 2))) ∧
      ¬ Finishes (some (.infinity false)) := by
  refine ⟨not_finishes fun count _ => ?_, not_finishes fun count _ => ?_,
    not_finishes fun count _ => rfl⟩
  · rw [tries_finite (by decide)]
    refine decide_eq_false (p := (-1 : ℚ) = count) fun same => ?_
    have numerators := congrArg Rat.num same
    rw [Rat.num_natCast] at numerators
    have negative : (-1 : ℚ).num = -1 := rfl
    omega
  · rw [tries_finite (by decide +kernel)]
    refine decide_eq_false (p := (1 / 2 : ℚ) = count) fun same => ?_
    have denominators := congrArg Rat.den same
    rw [Rat.den_natCast] at denominators
    have half : (1 / 2 : ℚ).den = 2 := by decide +kernel
    omega

end Manager

end Steveo
