import Mathlib.Data.List.Perm.Subperm
import Steveo.Library.Execution

/-!
# Lending from a stock

A stock lends to borrowers, to each of them once and to no more of them than its capacity.  A
system with a stock takes only those steps of the system that the stock allows.  What is never given
back is missing for good, and a stock that has lent everything lends nothing more.
-/

namespace Steveo

/-- Who has borrowed from a stock. -/
structure Loans (ι : Type*) (capacity : Nat) where
  borrowers : List ι
  distinct : borrowers.Nodup
  bounded : borrowers.length ≤ capacity

/-- What a step asks of the stock, or is told by it. -/
inductive Request (ι : Type*)
  | lend (borrower : ι)
  | giveBack (borrower : ι)
  /-- The stock does not take back what it has not lent. -/
  | refuse (borrower : ι)
  /-- The stock tells how much it has lent. -/
  | count (lent : Nat)

namespace Loans

variable {ι : Type*} {capacity : Nat}

/-- Nothing has been lent. -/
def nothing : Loans ι capacity := ⟨[], .nil, Nat.zero_le _⟩

/-- Distinct borrowers are no more than the capacity. -/
theorem length_le (loans : Loans ι capacity) {part : List ι} (distinct : part.Nodup)
    (borrowed : part ⊆ loans.borrowers) : part.length ≤ capacity :=
  Nat.le_trans (distinct.length_le_of_subset borrowed) loans.bounded

/-- When as many as the capacity keep what they have borrowed, no one else has borrowed. -/
theorem mem_of_full (loans : Loans ι capacity) {keepers : List ι} (distinct : keepers.Nodup)
    (borrowed : keepers ⊆ loans.borrowers) (full : keepers.length = capacity) {borrower : ι}
    (member : borrower ∈ loans.borrowers) : borrower ∈ keepers := by
  have enough : loans.borrowers.length ≤ keepers.length := full ▸ loans.bounded
  have same := (distinct.subperm borrowed).perm_of_length_le enough
  exact same.mem_iff.mpr member

variable [DecidableEq ι]

/-- Lend to a new borrower, if anything is left. -/
def lend (loans : Loans ι capacity) (borrower : ι) : Option (Loans ι capacity) :=
  if allowed : borrower ∉ loans.borrowers ∧ loans.borrowers.length < capacity then
    some {
      borrowers := borrower :: loans.borrowers
      distinct := List.nodup_cons.mpr ⟨allowed.1, loans.distinct⟩
      bounded := allowed.2 }
  else
    none

/-- Take back what has been lent. -/
def giveBack (loans : Loans ι capacity) (borrower : ι) : Option (Loans ι capacity) :=
  if borrower ∈ loans.borrowers then
    some {
      borrowers := loans.borrowers.erase borrower
      distinct := loans.distinct.erase borrower
      bounded := Nat.le_trans List.length_erase_le loans.bounded }
  else
    none

/-- What a step that may ask something leads to, if the stock allows it. -/
def serve (loans : Loans ι capacity) : Option (Request ι) → Option (Loans ι capacity)
  | none => some loans
  | some (.lend borrower) => loans.lend borrower
  | some (.giveBack borrower) => loans.giveBack borrower
  | some (.refuse borrower) => if borrower ∈ loans.borrowers then none else some loans
  | some (.count lent) => if loans.borrowers.length = lent then some loans else none

variable {loans after : Loans ι capacity} {borrower : ι}

theorem lend_spec (lent : loans.lend borrower = some after) :
    borrower ∉ loans.borrowers ∧ loans.borrowers.length < capacity ∧
      after.borrowers = borrower :: loans.borrowers := by
  rw [lend] at lent
  split at lent
  · rename_i allowed
    obtain rfl := Option.some.inj lent
    exact ⟨allowed.1, allowed.2, rfl⟩
  · cases lent

theorem giveBack_spec (returned : loans.giveBack borrower = some after) :
    borrower ∈ loans.borrowers ∧ after.borrowers = loans.borrowers.erase borrower := by
  rw [giveBack] at returned
  split at returned
  · rename_i known
    obtain rfl := Option.some.inj returned
    exact ⟨known, rfl⟩
  · cases returned

theorem refuse_spec (served : loans.serve (some (.refuse borrower)) = some after) :
    borrower ∉ loans.borrowers ∧ after = loans := by
  rw [serve] at served
  split at served
  · cases served
  · rename_i unknown
    exact ⟨unknown, (Option.some.inj served).symm⟩

theorem count_spec {lent : Nat} (served : loans.serve (some (.count lent)) = some after) :
    loans.borrowers.length = lent ∧ after = loans := by
  rw [serve] at served
  split at served
  · rename_i same
    exact ⟨same, (Option.some.inj served).symm⟩
  · cases served

/-- When as many as the capacity keep what they have borrowed, nothing is lent. -/
theorem lend_of_full (loans : Loans ι capacity) {keepers : List ι} (distinct : keepers.Nodup)
    (borrowed : keepers ⊆ loans.borrowers) (full : keepers.length = capacity) :
    loans.lend borrower = none := by
  cases lent : loans.lend borrower with
  | none => rfl
  | some after =>
      obtain ⟨-, room, -⟩ := lend_spec lent
      have all := distinct.length_le_of_subset borrowed
      omega

end Loans

/-- A state of a system beside the loans of a stock. -/
structure Stocked (State ι : Type*) (capacity : Nat) where
  state : State
  loans : Loans ι capacity

namespace System

variable {State Event ι : Type*} [DecidableEq ι]

/-- A system whose steps depend on a stock. -/
def lending (system : System State Event) (request : State → Event → Option (Request ι))
    (capacity : Nat) : System (Stocked State ι capacity) Event where
  step stocked event :=
    (system.step stocked.state event).bind fun next =>
      (stocked.loans.serve (request stocked.state event)).map fun loans => ⟨next, loans⟩

variable {system : System State Event} {request : State → Event → Option (Request ι)}
  {capacity : Nat} {before after : Stocked State ι capacity} {event : Event}

theorem lending_spec (stepped : (system.lending request capacity).step before event = some after) :
    system.step before.state event = some after.state ∧
      before.loans.serve (request before.state event) = some after.loans := by
  obtain ⟨next, step, rest⟩ := Option.bind_eq_some_iff.mp stepped
  obtain ⟨loans, served, rfl⟩ := Option.map_eq_some_iff.mp rest
  exact ⟨step, served⟩

/-- The runs of a system with a stock are runs of the system. -/
theorem lending_run {events : List Event} {initial final : Stocked State ι capacity}
    (execution : (system.lending request capacity).run events initial = some final) :
    system.run events initial.state = some final.state := by
  induction events generalizing initial with
  | nil =>
      obtain rfl := Option.some.inj execution
      rfl
  | cons event events induction =>
      obtain ⟨middle, step, rest⟩ := Option.bind_eq_some_iff.mp execution
      rw [run_cons, (lending_spec step).1, Option.bind_some]
      exact induction rest

end System

end Steveo
