import Steveo.Library.Action

/-!
# Asynchronous programs

A program of an event loop runs until it awaits the answer to a call, and it is resumed with that
answer.  Other programs may run in the meantime.  A program is therefore a tree with a branch for
every answer; it settles with a value or with an error message.
-/

namespace Steveo

variable {κ : Type} {ω : κ → Type} {α β σ : Type}

/-- A program that makes calls of a kind `κ`; the answer to a call is an error or of type `ω`. -/
inductive Async (ω : κ → Type) (α : Type) : Type
  | settled (outcome : Except String α)
  | await (call : κ) (next : Except String (ω call) → Async ω α)

namespace Async

/-- A call with its answer. -/
abbrev Entry (ω : κ → Type) : Type := Σ call : κ, Except String (ω call)

/-- Sequencing: the second program runs only if the first one settles with a value. -/
protected def bind : Async ω α → (α → Async ω β) → Async ω β
  | settled (.ok value), next => next value
  | settled (.error message), _ => settled (.error message)
  | await call resume, next => await call fun answer => (resume answer).bind next

instance : Monad (Async ω) where
  pure value := settled (.ok value)
  bind := Async.bind

/-- Make one call. -/
def perform (call : κ) : Async ω (ω call) := await call settled

/-- Reject with an error. -/
def reject (message : String) : Async ω α := settled (.error message)

/-- Observe the outcome of a program instead of passing its error on. -/
def attempt : Async ω α → Async ω (Except String α)
  | settled outcome => settled (.ok outcome)
  | await call resume => await call fun answer => (resume answer).attempt

/-- Settle with a known outcome. -/
def ofExcept (outcome : Except String α) : Async ω α := settled outcome

/-- Reject unless a check succeeds. -/
def ensure (check : Bool) (message : String) : Async ω Unit :=
  if check then pure () else reject message

/-- Run a program only where a check succeeds. -/
def runIf (check : Bool) (program : Async ω Unit) : Async ω Unit :=
  if check then program else pure ()

@[simp] theorem settled_ok_bind (value : α) (next : α → Async ω β) :
    (settled (.ok value) >>= next) = next value := rfl

@[simp] protected theorem pure_bind (value : α) (next : α → Async ω β) :
    ((pure value : Async ω α) >>= next) = next value := rfl

@[simp] theorem settled_error_bind (message : String) (next : α → Async ω β) :
    ((settled (.error message) : Async ω α) >>= next) = settled (.error message) := rfl

@[simp] theorem await_bind (call : κ) (resume : Except String (ω call) → Async ω α)
    (next : α → Async ω β) :
    (await call resume >>= next) = await call fun answer => resume answer >>= next := rfl

/-! ## Runs -/

/-- Some answered calls take a program to what is left of it. -/
inductive Runs : Async ω α → List (Entry ω) → Async ω α → Prop
  | refl (program : Async ω α) : Runs program [] program
  | cons {call : κ} {resume : Except String (ω call) → Async ω α} {answer : Except String (ω call)}
      {entries : List (Entry ω)} {rest : Async ω α} (run : Runs (resume answer) entries rest) :
      Runs (await call resume) (⟨call, answer⟩ :: entries) rest

/-- One more answer. -/
theorem Runs.answered {program : Async ω α} {entries : List (Entry ω)} {call : κ}
    {resume : Except String (ω call) → Async ω α} (run : Runs program entries (await call resume))
    (answer : Except String (ω call)) :
    Runs program (entries ++ [⟨call, answer⟩]) (resume answer) := by
  generalize pending : await call resume = rest at run
  induction run with
  | refl program =>
      subst pending
      exact .cons (.refl _)
  | cons run induction => exact .cons (induction pending)

/-! ## What holds at the end of every run -/

/-- Whatever admitted answers are given, a condition on the calls that have been made and on the
outcome holds when the program has settled. -/
def Ends (admits : ∀ call, Except String (ω call) → Prop) :
    Async ω α → List (Entry ω) → (List (Entry ω) → Except String α → Prop) → Prop
  | settled outcome, entries, post => post entries outcome
  | await call resume, entries, post =>
      ∀ answer, admits call answer → (resume answer).Ends admits (entries ++ [⟨call, answer⟩]) post

section Rules

variable {admits : ∀ call, Except String (ω call) → Prop} {entries : List (Entry ω)}

@[simp] theorem ends_settled (outcome : Except String α)
    (post : List (Entry ω) → Except String α → Prop) :
    (settled outcome : Async ω α).Ends admits entries post ↔ post entries outcome := Iff.rfl

@[simp] theorem ends_pure (value : α) (post : List (Entry ω) → Except String α → Prop) :
    (pure value : Async ω α).Ends admits entries post ↔ post entries (.ok value) := Iff.rfl

@[simp] theorem ends_reject (message : String) (post : List (Entry ω) → Except String α → Prop) :
    (reject message : Async ω α).Ends admits entries post ↔ post entries (.error message) := Iff.rfl

@[simp] theorem ends_ofExcept (outcome : Except String α)
    (post : List (Entry ω) → Except String α → Prop) :
    (ofExcept outcome : Async ω α).Ends admits entries post ↔ post entries outcome := Iff.rfl

@[simp] theorem ends_perform (call : κ) (post : List (Entry ω) → Except String (ω call) → Prop) :
    (perform call : Async ω (ω call)).Ends admits entries post ↔
      ∀ answer, admits call answer → post (entries ++ [⟨call, answer⟩]) answer := Iff.rfl

/-- The rule of sequencing. -/
@[simp] theorem ends_bind (program : Async ω α) (next : α → Async ω β)
    (post : List (Entry ω) → Except String β → Prop) :
    (program >>= next).Ends admits entries post ↔
      program.Ends admits entries fun entries outcome =>
        match outcome with
        | .ok value => (next value).Ends admits entries post
        | .error message => post entries (.error message) := by
  induction program generalizing entries with
  | settled outcome => cases outcome <;> exact Iff.rfl
  | await call resume induction =>
      exact forall_congr' fun answer => imp_congr_right fun _ => induction answer

@[simp] theorem ends_attempt (program : Async ω α)
    (post : List (Entry ω) → Except String (Except String α) → Prop) :
    program.attempt.Ends admits entries post ↔
      program.Ends admits entries fun entries outcome => post entries (.ok outcome) := by
  induction program generalizing entries with
  | settled outcome => exact Iff.rfl
  | await call resume induction =>
      exact forall_congr' fun answer => imp_congr_right fun _ => induction answer

/-- The rule of consequence. -/
theorem Ends.imp {program : Async ω α} {pre post : List (Entry ω) → Except String α → Prop}
    (ends : program.Ends admits entries pre)
    (implies : ∀ entries outcome, pre entries outcome → post entries outcome) :
    program.Ends admits entries post := by
  induction program generalizing entries with
  | settled outcome => exact implies _ _ ends
  | await call resume induction =>
      exact fun answer admitted => induction answer (ends answer admitted)

/-- What holds always holds at the end of every run. -/
theorem Ends.of_forall (program : Async ω α) {post : List (Entry ω) → Except String α → Prop}
    (holds : ∀ entries outcome, post entries outcome) : program.Ends admits entries post := by
  induction program generalizing entries with
  | settled outcome => exact holds _ _
  | await call resume induction => exact fun answer _ => induction answer

/-- The answered calls are kept. -/
theorem ends_extending (program : Async ω α) (entries : List (Entry ω)) :
    program.Ends admits entries fun after _ => entries <+: after := by
  induction program generalizing entries with
  | settled outcome => exact List.prefix_refl _
  | await call resume induction =>
      exact fun answer _ => (induction answer _).imp fun _ _ => (List.prefix_append _ _).trans

/-- The rule of conjunction. -/
theorem Ends.and {program : Async ω α} {first second : List (Entry ω) → Except String α → Prop}
    (one : program.Ends admits entries first) (other : program.Ends admits entries second) :
    program.Ends admits entries fun after outcome =>
      first after outcome ∧ second after outcome := by
  induction program generalizing entries with
  | settled outcome => exact ⟨one, other⟩
  | await call resume induction =>
      exact fun answer admitted => induction answer (one answer admitted) (other answer admitted)

/-- A run whose answers are admitted ends as it must. -/
theorem Runs.ends {program : Async ω α} {entries later : List (Entry ω)} {rest : Async ω α}
    {post : List (Entry ω) → Except String α → Prop} (run : Runs program later rest)
    (admitted : ∀ entry ∈ later, admits entry.1 entry.2)
    (ends : program.Ends admits entries post) : rest.Ends admits (entries ++ later) post := by
  induction run generalizing entries with
  | refl program => rwa [List.append_nil]
  | cons run induction =>
      obtain ⟨first, others⟩ := List.forall_mem_cons.mp admitted
      rw [List.append_cons]
      exact induction others (ends _ first)

end Rules

/-! ## The calls of a program -/

/-- A program makes calls of some kinds only. -/
def Makes (allowed : κ → Prop) : Async ω α → Prop
  | settled _ => True
  | await call resume => allowed call ∧ ∀ answer, (resume answer).Makes allowed

section Makes

variable {allowed : κ → Prop} {admits : ∀ call, Except String (ω call) → Prop}

@[simp] theorem makes_pure (value : α) : (pure value : Async ω α).Makes allowed := trivial

@[simp] theorem makes_reject (message : String) : (reject message : Async ω α).Makes allowed :=
  trivial

@[simp] theorem makes_ofExcept (outcome : Except String α) :
    (ofExcept outcome : Async ω α).Makes allowed := trivial

@[simp] theorem makes_perform (call : κ) :
    (perform call : Async ω (ω call)).Makes allowed ↔ allowed call := by
  simp [perform, Makes]

theorem Makes.bind {program : Async ω α} {next : α → Async ω β} (first : program.Makes allowed)
    (later : ∀ value, (next value).Makes allowed) : (program >>= next).Makes allowed := by
  induction program with
  | settled outcome =>
      cases outcome with
      | ok value => exact later value
      | error message => trivial
  | await call resume induction =>
      exact ⟨first.1, fun answer => induction answer (first.2 answer)⟩

theorem Makes.attempt {program : Async ω α} (makes : program.Makes allowed) :
    program.attempt.Makes allowed := by
  induction program with
  | settled outcome => trivial
  | await call resume induction =>
      exact ⟨makes.1, fun answer => induction answer (makes.2 answer)⟩

theorem Makes.runIf {program : Async ω Unit} (makes : program.Makes allowed) (check : Bool) :
    (runIf check program).Makes allowed := by
  cases check with
  | true => exact makes
  | false => trivial

/-- The answered calls of a program are of the kinds that it makes. -/
theorem Makes.ends {program : Async ω α} (makes : program.Makes allowed)
    (entries : List (Entry ω)) :
    program.Ends admits entries fun after _ =>
      ∃ added, after = entries ++ added ∧ ∀ entry ∈ added, allowed entry.1 := by
  induction program generalizing entries with
  | settled outcome => exact ⟨[], by simp, by simp⟩
  | await call resume induction =>
      refine fun answer _ => (induction answer (makes.2 answer) _).imp fun after _ => ?_
      rintro ⟨added, rfl, within⟩
      exact ⟨⟨call, answer⟩ :: added, by simp, List.forall_mem_cons.mpr ⟨makes.1, within⟩⟩

end Makes

/-! ## Programs that are not interrupted -/

/-- Run a program without interruption; calls are actions. -/
def interpret (serve : ∀ call, Action σ (ω call)) : Async ω α → Action σ α
  | settled outcome => MonadExcept.ofExcept outcome
  | await call resume => do
      let answer ← Action.attempt (serve call)
      (resume answer).interpret serve

section Interpretation

variable (serve : ∀ call, Action σ (ω call))

@[simp] theorem interpret_ofExcept (outcome : Except String α) :
    (ofExcept outcome : Async ω α).interpret serve = MonadExcept.ofExcept outcome := rfl

@[simp] theorem interpret_pure (value : α) :
    (pure value : Async ω α).interpret serve = pure value := rfl

@[simp] theorem interpret_reject (message : String) :
    (reject message : Async ω α).interpret serve = throw message := rfl

theorem exec_interpret_settled (outcome : Except String α) (state : σ) :
    Action.exec ((settled outcome : Async ω α).interpret serve) state = (outcome, state) := by
  cases outcome <;> rfl

theorem exec_interpret_await (call : κ) (resume : Except String (ω call) → Async ω α) (state : σ) :
    Action.exec ((await call resume).interpret serve) state =
      Action.exec ((resume (Action.exec (serve call) state).1).interpret serve)
        (Action.exec (serve call) state).2 := by
  rw [interpret, Action.exec_bind_ok (Action.exec_attempt _ _)]

@[simp] theorem interpret_perform (call : κ) :
    (perform call : Async ω (ω call)).interpret serve = serve call :=
  Action.ext fun state => by rw [perform, exec_interpret_await, exec_interpret_settled]

@[simp] theorem interpret_bind (program : Async ω α) (next : α → Async ω β) :
    (program >>= next).interpret serve =
      program.interpret serve >>= fun value => (next value).interpret serve := by
  refine Action.ext fun state => ?_
  induction program generalizing state with
  | settled outcome => cases outcome <;> rfl
  | await call resume induction =>
      rw [await_bind, exec_interpret_await, induction, Action.exec_bind, Action.exec_bind,
        exec_interpret_await]

@[simp] theorem interpret_attempt (program : Async ω α) :
    program.attempt.interpret serve = Action.attempt (program.interpret serve) := by
  refine Action.ext fun state => ?_
  induction program generalizing state with
  | settled outcome => rw [attempt, exec_interpret_settled, Action.exec_attempt,
      exec_interpret_settled]
  | await call resume induction =>
      rw [attempt, exec_interpret_await, induction, Action.exec_attempt, Action.exec_attempt,
        exec_interpret_await]

@[simp] theorem interpret_runIf (check : Bool) (program : Async ω Unit) :
    (runIf check program).interpret serve = Action.runIf check (program.interpret serve) := by
  cases check <;> rfl

@[simp] theorem interpret_ensure (check : Bool) (message : String) :
    (ensure check message : Async ω Unit).interpret serve = Action.ensure check message := by
  cases check <;> rfl

end Interpretation

end Async

end Steveo
