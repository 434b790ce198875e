import Steveo.Library.Mapping

/-!
# Errors that do not get out

A program contains the errors of its calls if it is rejected by some answers only, and by those at
once.  A mapping over such programs is rejected by no other answers either.
-/

namespace Steveo

variable {κ : Type} {ω : κ → Type} {α β : Type}
  {admits risky : ∀ call, Except String (ω call) → Prop}

namespace Async

/-- Among the admitted answers, the risky ones reject the program at once, and it is rejected by
no others. -/
def Contains (admits risky : ∀ call, Except String (ω call) → Prop) : Async ω α → Prop
  | settled outcome => ∃ value, outcome = .ok value
  | await call resume => ∀ answer, admits call answer →
      (risky call answer → ∃ message, resume answer = settled (.error message)) ∧
        (¬ risky call answer → (resume answer).Contains admits risky)

@[simp] theorem contains_pure (value : α) : (pure value : Async ω α).Contains admits risky :=
  ⟨value, rfl⟩

theorem contains_perform {call : κ}
    (rejects : ∀ answer, admits call answer →
      (risky call answer ↔ ∃ message, answer = .error message)) :
    (perform call : Async ω (ω call)).Contains admits risky := by
  intro answer admitted
  constructor
  · intro risk
    obtain ⟨message, rfl⟩ := (rejects answer admitted).mp risk
    exact ⟨message, rfl⟩
  · intro safe
    cases answer with
    | ok value => exact ⟨value, rfl⟩
    | error message => exact (safe ((rejects _ admitted).mpr ⟨message, rfl⟩)).elim

theorem Contains.bind {program : Async ω α} {next : α → Async ω β}
    (first : program.Contains admits risky) (later : ∀ value, (next value).Contains admits risky) :
    (program >>= next).Contains admits risky := by
  induction program with
  | settled outcome =>
      obtain ⟨value, rfl⟩ := first
      exact later value
  | await call resume induction =>
      intro answer admitted
      obtain ⟨rejects, goes⟩ := first answer admitted
      constructor
      · intro risk
        obtain ⟨message, rejected⟩ := rejects risk
        exact ⟨message, congrArg (· >>= next) rejected⟩
      · exact fun safe => induction answer (goes safe)

theorem Contains.runIf {program : Async ω Unit} (contains : program.Contains admits risky)
    (check : Bool) : (runIf check program).Contains admits risky := by
  cases check with
  | true => exact contains
  | false => exact contains_pure _

/-- A program that observes its outcome is never rejected. -/
theorem contains_attempt (program : Async ω α)
    (safe : program.Makes fun call => ∀ answer, ¬ risky call answer) :
    program.attempt.Contains admits risky := by
  induction program with
  | settled outcome => exact ⟨outcome, rfl⟩
  | await call resume induction =>
      exact fun answer _ =>
        ⟨fun risk => (safe.1 answer risk).elim, fun _ => induction answer (safe.2 answer)⟩

end Async

open Async

namespace Item

/-- The call that an item awaits. -/
def pending (item : Item ω α) : Option κ :=
  match item.program with
  | .settled _ => none
  | .await call _ => some call

theorem pending_eq_some {item : Item ω α} {call : κ} :
    item.pending = some call ↔ ∃ resume, item.program = .await call resume := by
  rw [pending]
  cases item.program with
  | settled outcome => simp
  | await other resume =>
      constructor
      · rintro same
        obtain rfl := Option.some.inj same
        exact ⟨resume, rfl⟩
      · rintro ⟨resume, same⟩
        cases same
        rfl

end Item

namespace Mapping

variable {before after : Mapping ω α}

/-- Every item contains its errors. -/
def Contained (admits risky : ∀ call, Except String (ω call) → Prop) (mapping : Mapping ω α) :
    Prop :=
  ∀ item ∈ mapping.items, item.program.Contains admits risky

theorem contained_begin {limit : Nat} {programs : List (Async ω α)}
    (contained : ∀ program ∈ programs, program.Contains admits risky) :
    (begin limit programs).Contained admits risky := by
  intro item member
  obtain ⟨index, bound, rfl⟩ := List.mem_mapIdx.mp member
  exact contained _ (List.getElem_mem bound)

theorem Contained.not_rejected (contained : before.Contained admits risky) :
    before.rejected = false := by
  refine List.any_eq_false.mpr fun item member rejected => ?_
  obtain ⟨-, message, settled⟩ := Item.rejected_iff.mp rejected
  have fulfils := contained item member
  rw [settled] at fulfils
  obtain ⟨value, same⟩ := fulfils
  cases same

theorem Contained.start (contained : before.Contained admits risky) {index : Nat}
    (stepped : step before (.start index) = some after) : after.Contained admits risky := by
  obtain ⟨item, found, -, -, -, rfl⟩ := step_start stepped
  intro other member
  rcases List.mem_or_eq_of_mem_set member with member | rfl
  · exact contained other member
  · exact contained item (List.mem_of_getElem? found)

/-- An answer keeps a mapping contained, unless it is risky; then the mapping is rejected. -/
theorem Contained.reply (contained : before.Contained admits risky) {index : Nat}
    {environment : ∀ call, Except String (ω call)}
    (admitted : ∀ call, admits call (environment call))
    (stepped : step before (.reply index environment) = some after) :
    ∃ item call, before.items[index]? = some item ∧ item.pending = some call ∧
      (risky call (environment call) → after.rejected = true) ∧
        (¬ risky call (environment call) → after.Contained admits risky) := by
  obtain ⟨item, next, found, replied, rfl⟩ := step_reply stepped
  obtain ⟨-, started, -, call, resume, awaits, goes, -⟩ := Item.reply_spec replied
  have holds := contained item (List.mem_of_getElem? found)
  rw [awaits] at holds
  obtain ⟨rejects, continues⟩ := holds (environment call) (admitted call)
  refine ⟨item, call, found, Item.pending_eq_some.mpr ⟨resume, awaits⟩, fun risk => ?_,
    fun safe => ?_⟩
  · obtain ⟨message, rejected⟩ := rejects risk
    obtain ⟨bound, -⟩ := List.getElem?_eq_some_iff.mp found
    refine List.any_eq_true.mpr ⟨next, List.mem_set bound next, ?_⟩
    exact Item.rejected_iff.mpr ⟨started, message, goes.trans rejected⟩
  · intro other member
    rcases List.mem_or_eq_of_mem_set member with member | rfl
    · exact contained other member
    · rw [goes]
      exact continues safe

end Mapping

end Steveo
