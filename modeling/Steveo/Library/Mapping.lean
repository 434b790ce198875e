import Mathlib.Algebra.GroupWithZero.Nat
import Mathlib.Algebra.Order.BigOperators.Group.List
import Mathlib.Algebra.Order.Group.Nat
import Mathlib.Data.List.Induction
import Steveo.Library.Async
import Steveo.Library.Execution

/-!
# Mapping a list with limited concurrency

A mapping runs one asynchronous program for each item of a list.  At first it starts as many items
as the limit allows; when one of them has been fulfilled it may start another one, in any order.
Once an item has been rejected it starts no further ones, but those in flight go on.
-/

namespace Steveo

variable {κ : Type} {ω : κ → Type} {α : Type}

open Async

/-- An item with its program, the answers that it has got, and what is left of the program. -/
structure Item (ω : κ → Type) (α : Type) where
  origin : Async ω α
  started : Bool
  log : List (Entry ω)
  program : Async ω α
  /-- The answers have taken the program to what is left. -/
  trace : origin.Runs log program
  /-- Nothing has been asked before the start. -/
  idle : started = false → log = []

namespace Item

/-- An item before its program has run. -/
def fresh (started : Bool) (program : Async ω α) : Item ω α where
  origin := program
  started := started
  log := []
  program := program
  trace := .refl program
  idle _ := rfl

/-- Start an item. -/
def start (item : Item ω α) : Item ω α :=
  { item with started := true, idle := fun unstarted => Bool.noConfusion unstarted }

/-- Answer the pending call of an item in flight. -/
def reply (environment : ∀ call, Except String (ω call)) : Item ω α → Option (Item ω α)
  | ⟨origin, true, log, .await call resume, trace, _⟩ =>
      some ⟨origin, true, log ++ [⟨call, environment call⟩], resume (environment call),
        trace.answered (environment call), fun unstarted => Bool.noConfusion unstarted⟩
  | _ => none

/-- Whether the program of an item has settled. -/
def settled (item : Item ω α) : Bool :=
  match item.program with
  | .settled _ => true
  | .await _ _ => false

/-- Whether an item has been rejected. -/
def rejected (item : Item ω α) : Bool :=
  match item.started, item.program with
  | true, .settled (.error _) => true
  | _, _ => false

/-- Whether an item has been started and not been fulfilled. -/
def inFlight (item : Item ω α) : Bool :=
  match item.started, item.program with
  | true, .await _ _ | true, .settled (.error _) => true
  | _, _ => false

variable {item after : Item ω α}

/-- An answer leads on from a call that was pending. -/
theorem reply_spec {environment : ∀ call, Except String (ω call)}
    (replied : item.reply environment = some after) :
    item.started = true ∧ after.started = true ∧ after.origin = item.origin ∧
      ∃ call resume, item.program = .await call resume ∧
        after.program = resume (environment call) ∧
          after.log = item.log ++ [⟨call, environment call⟩] := by
  obtain ⟨origin, started, log, program, trace, idle⟩ := item
  cases started with
  | false => cases replied
  | true =>
      cases program with
      | settled outcome => cases replied
      | await call resume =>
          obtain rfl := Option.some.inj replied
          exact ⟨rfl, rfl, rfl, call, resume, rfl, rfl, rfl⟩

theorem settled_iff : item.settled = true ↔ ∃ outcome, item.program = .settled outcome := by
  rw [settled]
  cases item.program <;> simp

theorem rejected_iff : item.rejected = true ↔
    item.started = true ∧ ∃ message, item.program = .settled (.error message) := by
  rw [rejected]
  cases item.started with
  | false => simp
  | true =>
      cases item.program with
      | await _ _ => simp
      | settled outcome => cases outcome <;> simp

end Item

/-- The items of a mapping, and how many of them may be in flight; zero is no limit. -/
structure Mapping (ω : κ → Type) (α : Type) where
  limit : Nat
  items : List (Item ω α)

namespace Mapping

/-- What can happen in a mapping. -/
inductive Event (ω : κ → Type)
  | start (index : Nat)
  /-- The environment answers the pending call of an item. -/
  | reply (index : Nat) (environment : ∀ call, Except String (ω call))

/-- A mapping starts its first items at once. -/
def begin (limit : Nat) (programs : List (Async ω α)) : Mapping ω α where
  limit := limit
  items := programs.mapIdx fun index program =>
    Item.fresh (limit = 0 || index < limit) program

variable (mapping : Mapping ω α)

/-- Whether an item has been rejected. -/
def rejected : Bool := mapping.items.any Item.rejected

/-- The number of items in flight. -/
def inFlight : Nat := mapping.items.countP Item.inFlight

/-- Every item that has been started has settled. -/
def Quiescent : Prop := ∀ item ∈ mapping.items, item.started = true → item.settled = true

/-- The next state, if the event can happen. -/
def step : Event ω → Option (Mapping ω α)
  | .start index =>
      mapping.items[index]?.bind fun item =>
        if item.started = false ∧ mapping.rejected = false ∧ mapping.inFlight < mapping.limit then
          some { mapping with items := mapping.items.set index item.start }
        else
          none
  | .reply index environment =>
      mapping.items[index]?.bind fun item =>
        (item.reply environment).map fun after =>
          { mapping with items := mapping.items.set index after }

/-- The mappings whose items have some outcome. -/
def system (ω : κ → Type) (α : Type) : System (Mapping ω α) (Event ω) := ⟨step⟩

/-- Whether an item has been fulfilled. -/
def Fulfilled (item : Item ω α) : Prop :=
  item.started = true ∧ ∃ value, item.program = .settled (.ok value)

/-- The promise of the whole mapping has settled. -/
def Settled : Prop := mapping.rejected = true ∨ ∀ item ∈ mapping.items, Fulfilled item

/-- An event that keeps to what may be answered. -/
def Event.Admitted (admits : ∀ call, Except String (ω call) → Prop) : Event ω → Prop
  | .start _ => True
  | .reply _ environment => ∀ call, admits call (environment call)

section Steps

variable {before after : Mapping ω α}

theorem step_start {index : Nat} (stepped : step before (.start index) = some after) :
    ∃ item, before.items[index]? = some item ∧ item.started = false ∧ before.rejected = false ∧
      before.inFlight < before.limit ∧
        after = { before with items := before.items.set index item.start } := by
  obtain ⟨item, found, allowed⟩ := Option.bind_eq_some_iff.mp stepped
  simp only [Option.ite_none_right_eq_some, Option.some.injEq] at allowed
  exact ⟨item, found, allowed.1.1, allowed.1.2.1, allowed.1.2.2, allowed.2.symm⟩

theorem step_reply {index : Nat} {environment : ∀ call, Except String (ω call)}
    (stepped : step before (.reply index environment) = some after) :
    ∃ item next, before.items[index]? = some item ∧ item.reply environment = some next ∧
      after = { before with items := before.items.set index next } := by
  obtain ⟨item, found, answered⟩ := Option.bind_eq_some_iff.mp stepped
  obtain ⟨next, replied, rfl⟩ := Option.map_eq_some_iff.mp answered
  exact ⟨item, next, found, replied, rfl⟩

/-- Every event changes one item, which keeps its program and stays started. -/
theorem step_item {event : Event ω} (stepped : step before event = some after) :
    ∃ index item next, before.items[index]? = some item ∧
      next.origin = item.origin ∧ next.started = true ∧
        after = { before with items := before.items.set index next } := by
  cases event with
  | start index =>
      obtain ⟨item, found, -, -, -, rfl⟩ := step_start stepped
      exact ⟨index, item, item.start, found, rfl, rfl, rfl⟩
  | reply index environment =>
      obtain ⟨item, next, found, replied, rfl⟩ := step_reply stepped
      obtain ⟨-, started, origin, -⟩ := Item.reply_spec replied
      exact ⟨index, item, next, found, origin, started, rfl⟩

/-- The items of a mapping keep their programs. -/
theorem origins_step {event : Event ω} (stepped : step before event = some after) :
    after.items.map Item.origin = before.items.map Item.origin := by
  obtain ⟨index, item, next, found, origin, -, rfl⟩ := step_item stepped
  refine List.ext_getElem? fun other => ?_
  rw [List.getElem?_map, List.getElem?_map, List.getElem?_set]
  split
  · rename_i same
    subst same
    obtain ⟨bound, -⟩ := List.getElem?_eq_some_iff.mp found
    rw [if_pos bound, found, Option.map_some, Option.map_some, origin]
  · rfl

/-- An item that has been started stays started. -/
theorem started_step {event : Event ω} {index : Nat} (stepped : step before event = some after)
    (started : ∃ item, before.items[index]? = some item ∧ item.started = true) :
    ∃ item, after.items[index]? = some item ∧ item.started = true := by
  obtain ⟨changed, item, next, found, -, starts, rfl⟩ := step_item stepped
  by_cases same : changed = index
  · subst same
    obtain ⟨bound, -⟩ := List.getElem?_eq_some_iff.mp found
    exact ⟨next, List.getElem?_set_self bound, starts⟩
  · obtain ⟨kept, present, flag⟩ := started
    exact ⟨kept, by rwa [List.getElem?_set_ne same], flag⟩

end Steps

/-! ## Runs -/

section Runs

variable {limit : Nat} {programs : List (Async ω α)} {events : List (Event ω)}
  {mapping final : Mapping ω α}

@[simp] theorem origins_begin (limit : Nat) (programs : List (Async ω α)) :
    (begin limit programs).items.map Item.origin = programs := by
  refine List.ext_getElem? fun index => ?_
  rw [begin, List.getElem?_map, List.getElem?_mapIdx]
  cases programs[index]? <;> rfl

/-- The items of a mapping run the programs with which it began. -/
theorem origins_run (execution : (system ω α).run events (begin limit programs) = some final) :
    final.items.map Item.origin = programs := by
  have preserved : ∀ (before : Mapping ω α) event after,
      before.items.map Item.origin = programs → (system ω α).step before event = some after →
        after.items.map Item.origin = programs :=
    fun _ _ _ same stepped => (origins_step stepped).trans same
  exact System.invariant_of_run preserved (origins_begin limit programs) execution

/-- The limit never changes. -/
theorem limit_run (execution : (system ω α).run events mapping = some final) :
    final.limit = mapping.limit := by
  have preserved : ∀ (before : Mapping ω α) event after, before.limit = mapping.limit →
      (system ω α).step before event = some after → after.limit = mapping.limit := by
    intro before event after same stepped
    obtain ⟨index, item, next, -, -, -, rfl⟩ := step_item stepped
    exact same
  exact System.invariant_of_run preserved rfl execution

/-- The item at an index runs the program at that index. -/
theorem origin_at (execution : (system ω α).run events (begin limit programs) = some final)
    {index : Nat} {item : Item ω α} (found : final.items[index]? = some item) :
    programs[index]? = some item.origin := by
  rw [← origins_run execution, List.getElem?_map, found, Option.map_some]

section Mapped

variable {τ : Type} {terms : List τ} {build : τ → Async ω α} {item : Item ω α}

/-- Every item has been made from a term. -/
theorem exists_index
    (execution : (system ω α).run events (begin limit (terms.map build)) = some final)
    (member : item ∈ final.items) :
    ∃ (index : Nat) (term : τ), terms[index]? = some term ∧ final.items[index]? = some item := by
  obtain ⟨index, found⟩ := List.mem_iff_getElem?.mp member
  have origin := origin_at execution found
  rw [List.getElem?_map] at origin
  obtain ⟨term, present, -⟩ := Option.map_eq_some_iff.mp origin
  exact ⟨index, term, present, found⟩

/-- An item runs the program for the term at its index. -/
theorem origin_eq
    (execution : (system ω α).run events (begin limit (terms.map build)) = some final)
    {index : Nat} {term : τ} (present : terms[index]? = some term)
    (found : final.items[index]? = some item) : item.origin = build term := by
  have origin := origin_at execution found
  rw [List.getElem?_map, present, Option.map_some, Option.some.injEq] at origin
  exact origin.symm

/-- There is an item for every term. -/
theorem exists_item
    (execution : (system ω α).run events (begin limit (terms.map build)) = some final)
    {index : Nat} {term : τ} (present : terms[index]? = some term) :
    ∃ item, final.items[index]? = some item := by
  have origins := congrArg (·[index]?) (origins_run execution)
  simp only [List.getElem?_map, present, Option.map_some] at origins
  obtain ⟨item, found, -⟩ := Option.map_eq_some_iff.mp origins
  exact ⟨item, found⟩

end Mapped

/-- An item that has been started stays started. -/
theorem started_run (execution : (system ω α).run events mapping = some final) {index : Nat}
    (started : ∃ item, mapping.items[index]? = some item ∧ item.started = true) :
    ∃ item, final.items[index]? = some item ∧ item.started = true := by
  have preserved : ∀ (before : Mapping ω α) event after,
      (∃ item, before.items[index]? = some item ∧ item.started = true) →
        (system ω α).step before event = some after →
          ∃ item, after.items[index]? = some item ∧ item.started = true :=
    fun _ _ _ started stepped => started_step stepped started
  exact System.invariant_of_run preserved started execution

/-- The first items are started at once. -/
theorem started_begin {index : Nat} {program : Async ω α}
    (found : programs[index]? = some program) (within : limit = 0 ∨ index < limit) :
    ∃ item, (begin limit programs).items[index]? = some item ∧ item.started = true := by
  refine ⟨Item.fresh (limit = 0 || index < limit) program, ?_, ?_⟩
  · rw [begin, List.getElem?_mapIdx, found, Option.map_some]
  · simpa [Item.fresh] using within

/-- Where only admitted answers are given, every answer is admitted. -/
theorem admitted_run {admits : ∀ call, Except String (ω call) → Prop}
    (admitted : ∀ event ∈ events, event.Admitted admits)
    (execution : (system ω α).run events (begin limit programs) = some final) :
    ∀ item ∈ final.items, ∀ entry ∈ item.log, admits entry.1 entry.2 := by
  have along := (system ω α).along_of_forall admitted (begin limit programs)
  have start : ∀ item ∈ (begin limit programs).items, ∀ entry ∈ item.log,
      admits entry.1 entry.2 := by
    intro item member entry listed
    obtain ⟨index, bound, rfl⟩ := List.mem_mapIdx.mp member
    cases listed
  have preserved : ∀ (before : Mapping ω α) (event : Event ω) after,
      (∀ item ∈ before.items, ∀ entry ∈ item.log, admits entry.1 entry.2) →
        event.Admitted admits → (system ω α).step before event = some after →
          ∀ item ∈ after.items, ∀ entry ∈ item.log, admits entry.1 entry.2 := by
    intro before event after kept allowed stepped item member
    cases event with
    | start index =>
        obtain ⟨started, found, -, -, -, rfl⟩ := step_start stepped
        rcases List.mem_or_eq_of_mem_set member with member | rfl
        · exact kept item member
        · exact kept started (List.mem_of_getElem? found)
    | reply index environment =>
        obtain ⟨old, next, found, replied, rfl⟩ := step_reply stepped
        rcases List.mem_or_eq_of_mem_set member with member | rfl
        · exact kept item member
        · obtain ⟨-, -, -, call, resume, -, -, log⟩ := Item.reply_spec replied
          rw [log]
          intro entry listed
          rcases List.mem_append.mp listed with earlier | last
          · exact kept old (List.mem_of_getElem? found) entry earlier
          · obtain rfl := List.mem_singleton.mp last
            exact allowed call
  exact System.invariant_run preserved start along execution

/-- An item that has settled has ended as its program must. -/
theorem ends_of_settled {admits : ∀ call, Except String (ω call) → Prop}
    (admitted : ∀ event ∈ events, event.Admitted admits)
    (execution : (system ω α).run events (begin limit programs) = some final) {item : Item ω α}
    (member : item ∈ final.items) {outcome : Except String α}
    (settled : item.program = .settled outcome)
    {post : List (Entry ω) → Except String α → Prop} (ends : item.origin.Ends admits [] post) :
    post item.log outcome := by
  have answers := item.trace.ends (admitted_run admitted execution item member) ends
  rwa [settled, ends_settled, List.nil_append] at answers

/-- Once every item that has been started has settled, each log is empty or one at an end. -/
theorem log_of_quiescent {admits : ∀ call, Except String (ω call) → Prop}
    (admitted : ∀ event ∈ events, event.Admitted admits)
    (execution : (system ω α).run events (begin limit programs) = some final)
    (quiescent : final.Quiescent) {item : Item ω α} (member : item ∈ final.items)
    {post : List (Entry ω) → Prop} (empty : post [])
    (ends : item.origin.Ends admits [] fun log _ => post log) : post item.log := by
  cases started : item.started with
  | false => rwa [item.idle started]
  | true =>
      obtain ⟨outcome, settled⟩ := Item.settled_iff.mp (quiescent item member started)
      exact ends_of_settled admitted execution member settled ends

end Runs

/-! ## Sums over the items -/

variable {τ : Type} {terms : List τ} {small large : τ → Nat}

/-- Where each term is at most another, the sums are equal exactly if the terms are. -/
theorem sum_eq_iff_of_le (below : ∀ term ∈ terms, small term ≤ large term) :
    (terms.map large).sum = (terms.map small).sum ↔ ∀ term ∈ terms, large term = small term := by
  induction terms with
  | nil => simp
  | cons term terms induction =>
      obtain ⟨first, rest⟩ := List.forall_mem_cons.mp below
      have later := List.sum_le_sum rest
      rw [List.forall_mem_cons, ← induction rest]
      simp only [List.map_cons, List.sum_cons]
      omega

end Mapping

end Steveo
