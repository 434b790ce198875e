import Mathlib.Logic.Basic

/-!
# Computations whose effects survive an exception

An action reads and changes a state and either returns a value or throws a message.  Unlike a
transaction, a thrown message leaves the changes made so far in place, as effects on the outside
world do.
-/

namespace Steveo

/-- A computation over a state that keeps its changes when it throws. -/
abbrev Action (σ α : Type) := ExceptT String (StateM σ) α

namespace Action

variable {σ α β : Type}

/-- The outcome of an action together with the state it leaves behind. -/
def exec (action : Action σ α) (state : σ) : Except String α × σ := action.run.run state

/-- Observe the outcome of an action instead of passing its exception on. -/
def attempt (action : Action σ α) : Action σ (Except String α) :=
  ExceptT.lift action.run

/-- Throw unless a check succeeds. -/
def ensure (check : Bool) (message : String) : Action σ Unit :=
  if check then pure () else throw message

/-- Run an action only where a check succeeds. -/
def runIf (check : Bool) (action : Action σ Unit) : Action σ Unit :=
  if check then action else pure ()

/-- Actions that do the same in every state are equal. -/
theorem ext {first second : Action σ α} (same : ∀ state, exec first state = exec second state) :
    first = second := funext same

@[simp] theorem exec_pure (value : α) (state : σ) :
    exec (pure value : Action σ α) state = (.ok value, state) := rfl

@[simp] theorem exec_throw (message : String) (state : σ) :
    exec (throw message : Action σ α) state = (.error message, state) := rfl

@[simp] theorem exec_get (state : σ) : exec (get : Action σ σ) state = (.ok state, state) := rfl

@[simp] theorem exec_modify (change : σ → σ) (state : σ) :
    exec (modify change : Action σ PUnit) state = (.ok ⟨⟩, change state) := rfl

/-- Sequencing: the second action runs only where the first one returns. -/
theorem exec_bind (action : Action σ α) (next : α → Action σ β) (state : σ) :
    exec (action >>= next) state =
      match exec action state with
      | (.ok value, after) => exec (next value) after
      | (.error message, after) => (.error message, after) := by
  simp only [exec, bind, ExceptT.run, ExceptT.bind, ExceptT.mk, StateT.run, StateT.bind]
  rcases action state with ⟨outcome, after⟩
  cases outcome with
  | ok value => rfl
  | error message => rfl

theorem exec_bind_ok {action : Action σ α} {state after : σ} {value : α}
    (returned : exec action state = (.ok value, after)) (next : α → Action σ β) :
    exec (action >>= next) state = exec (next value) after := by
  rw [exec_bind, returned]

theorem exec_bind_error {action : Action σ α} {state after : σ} {message : String}
    (thrown : exec action state = (.error message, after)) (next : α → Action σ β) :
    exec (action >>= next) state = (.error message, after) := by
  rw [exec_bind, thrown]

/-- A sequence that returns has passed through a state in which its first action returned. -/
theorem exec_bind_eq_ok {action : Action σ α} {next : α → Action σ β} {state after : σ} {value : β}
    (returned : exec (action >>= next) state = (.ok value, after)) :
    ∃ first middle, exec action state = (.ok first, middle) ∧
      exec (next first) middle = (.ok value, after) := by
  rw [exec_bind] at returned
  split at returned
  · rename_i first middle returns
    exact ⟨first, middle, returns, returned⟩
  · cases congrArg Prod.fst returned

@[simp] theorem exec_attempt (action : Action σ α) (state : σ) :
    exec (attempt action) state = (.ok (exec action state).1, (exec action state).2) := rfl

/-- What was observed of an action is what it did. -/
theorem exec_of_attempt {action : Action σ α} {state after : σ} {outcome : Except String α}
    (observed : exec (attempt action) state = (.ok outcome, after)) :
    exec action state = (outcome, after) := by
  obtain ⟨first, second⟩ := Prod.mk.inj ((exec_attempt action state).symm.trans observed)
  exact Prod.ext (Except.ok.inj first) second

@[simp] theorem exec_ensure_true (message : String) (state : σ) :
    exec (ensure true message) state = (.ok (), state) := rfl

@[simp] theorem exec_ensure_false (message : String) (state : σ) :
    exec (ensure false message) state = (.error message, state) := rfl

@[simp] theorem exec_runIf_false (action : Action σ Unit) (state : σ) :
    exec (runIf false action) state = (.ok (), state) := rfl

@[simp] theorem exec_ofExcept_ok (value : α) (state : σ) :
    exec (ofExcept (.ok value) : Action σ α) state = (.ok value, state) := rfl

@[simp] theorem exec_ofExcept_error (message : String) (state : σ) :
    exec (ofExcept (.error message) : Action σ α) state = (.error message, state) := rfl

theorem exec_ofExcept (outcome : Except String α) (state : σ) :
    exec (ofExcept outcome : Action σ α) state = (outcome, state) := by
  cases outcome <;> rfl

/-! ## Effects that every action of a kind has -/

/-- Whether it returns or throws, the action leaves a state related to the one it started in. -/
def Preserves (relation : σ → σ → Prop) (action : Action σ α) : Prop :=
  ∀ state, relation state (exec action state).2

/-- The relations by which effects are described hold of no effect and of composed effects. -/
structure EffectRelation (relation : σ → σ → Prop) : Prop where
  refl : ∀ state, relation state state
  trans : ∀ {before middle after}, relation before middle → relation middle after →
    relation before after

namespace EffectRelation

variable {relation : σ → σ → Prop}

theorem pure (effects : EffectRelation relation) (value : α) :
    Preserves relation (Pure.pure value : Action σ α) :=
  fun state => effects.refl state

theorem throw (effects : EffectRelation relation) (message : String) :
    Preserves relation (MonadExcept.throw message : Action σ α) :=
  fun state => effects.refl state

theorem ensure (effects : EffectRelation relation) (check : Bool) (message : String) :
    Preserves relation (Action.ensure check message) := by
  cases check with
  | true => exact fun state => effects.refl state
  | false => exact fun state => effects.refl state

theorem runIf (effects : EffectRelation relation) (check : Bool) {action : Action σ Unit}
    (checked : Preserves relation action) : Preserves relation (Action.runIf check action) := by
  cases check with
  | true => exact checked
  | false => exact fun state => effects.refl state

theorem ofExcept (effects : EffectRelation relation) (outcome : Except String α) :
    Preserves relation (MonadExcept.ofExcept outcome : Action σ α) := by
  cases outcome with
  | ok value => exact fun state => effects.refl state
  | error message => exact fun state => effects.refl state

theorem bind (effects : EffectRelation relation) {action : Action σ α} {next : α → Action σ β}
    (first : Preserves relation action) (later : ∀ value, Preserves relation (next value)) :
    Preserves relation (action >>= next) := by
  intro state
  have start := first state
  rw [exec_bind]
  rcases result : exec action state with ⟨outcome, middle⟩
  rw [result] at start
  cases outcome with
  | ok value => exact effects.trans start (later value middle)
  | error message => exact start

theorem attempt {action : Action σ α} (observed : Preserves relation action) :
    Preserves relation (Action.attempt action) :=
  observed

end EffectRelation

/-! ## Actions that differ in the texts of their errors -/

/-- Both actions do the same, but for the text of an error. -/
def Alike (first second : Action σ α) : Prop :=
  ∀ state, (exec first state).1.toOption = (exec second state).1.toOption ∧
    (exec first state).2 = (exec second state).2

namespace Alike

theorem refl (action : Action σ α) : Alike action action := fun _ => ⟨rfl, rfl⟩

theorem throw (message message' : String) :
    Alike (MonadExcept.throw message : Action σ α) (MonadExcept.throw message') :=
  fun _ => ⟨rfl, rfl⟩

theorem symm {first second : Action σ α} (alike : Alike first second) : Alike second first :=
  fun state => ⟨(alike state).1.symm, (alike state).2.symm⟩

theorem trans {first second third : Action σ α} (alike : Alike first second)
    (alike' : Alike second third) : Alike first third :=
  fun state => ⟨(alike state).1.trans (alike' state).1, (alike state).2.trans (alike' state).2⟩

theorem bind {first second : Action σ α} {next next' : α → Action σ β}
    (alike : Alike first second) (later : ∀ value, Alike (next value) (next' value)) :
    Alike (first >>= next) (second >>= next') := by
  intro state
  have start := alike state
  rw [exec_bind, exec_bind]
  rcases result : exec first state with ⟨outcome, middle⟩
  rcases result' : exec second state with ⟨outcome', middle'⟩
  rw [result, result'] at start
  obtain ⟨same, rfl⟩ : outcome.toOption = outcome'.toOption ∧ middle = middle' := start
  cases outcome with
  | ok value =>
      cases outcome' with
      | ok value' =>
          obtain rfl := Option.some.inj same
          exact later value middle
      | error message => cases same
  | error message =>
      cases outcome' with
      | ok value' => cases same
      | error message' => exact ⟨rfl, rfl⟩

end Alike

end Action

end Steveo
