import Steveo.Library.Census

/-!
# Mappings that share a state

Several mappings run side by side, and one state answers all their calls.  A program knows what the
answers have told it; the rule of this file is that this knowledge stays true, if every answer
tells the truth, no call that a program can make takes a known truth away, and each program makes
only calls that its knowledge justifies.  What is known may depend on the order of the answers.
-/

namespace Steveo

variable {κ : Type} {ω : κ → Type} {α χ σ : Type}

open Async

/-! ## Justified calls -/

namespace Async

/-- Whatever is answered, every call is justified by the calls that have been answered before. -/
def Asks (justified : List (Entry ω) → κ → Prop) : Async ω α → List (Entry ω) → Prop
  | settled _, _ => True
  | await call resume, entries =>
      justified entries call ∧
        ∀ answer, (resume answer).Asks justified (entries ++ [⟨call, answer⟩])

variable {justified : List (Entry ω) → κ → Prop} {β : Type}

/-- Where every call is justified, every program makes justified calls. -/
theorem asks_of_forall (always : ∀ entries call, justified entries call) (program : Async ω α)
    (entries : List (Entry ω)) : program.Asks justified entries := by
  induction program generalizing entries with
  | settled outcome => trivial
  | await call resume induction => exact ⟨always entries call, fun answer => induction answer _⟩

@[simp] theorem asks_pure (value : α) (entries : List (Entry ω)) :
    (pure value : Async ω α).Asks justified entries := trivial

@[simp] theorem asks_reject (message : String) (entries : List (Entry ω)) :
    (reject message : Async ω α).Asks justified entries := trivial

@[simp] theorem asks_ofExcept (outcome : Except String α) (entries : List (Entry ω)) :
    (ofExcept outcome : Async ω α).Asks justified entries := trivial

@[simp] theorem asks_ensure (check : Bool) (message : String) (entries : List (Entry ω)) :
    (ensure check message : Async ω Unit).Asks justified entries := by
  rw [ensure]
  cases check <;> trivial

@[simp] theorem asks_perform (call : κ) (entries : List (Entry ω)) :
    (perform call : Async ω (ω call)).Asks justified entries ↔ justified entries call := by
  simp [perform, Asks]

/-- The rule of sequencing: the second program may use what the first one has learned. -/
theorem Asks.bind {program : Async ω α} {next : α → Async ω β} {entries : List (Entry ω)}
    (first : program.Asks justified entries)
    (later : program.Ends (fun _ _ => True) entries fun after outcome =>
      ∀ value, outcome = .ok value → (next value).Asks justified after) :
    (program >>= next).Asks justified entries := by
  induction program generalizing entries with
  | settled outcome =>
      cases outcome with
      | ok value => exact later value rfl
      | error message => trivial
  | await call resume induction =>
      exact ⟨first.1, fun answer => induction answer (first.2 answer) (later answer trivial)⟩

/-- A second program that may always be asked needs nothing from the first one. -/
theorem Asks.always {program : Async ω α} {next : α → Async ω β} {entries : List (Entry ω)}
    (first : program.Asks justified entries)
    (later : ∀ value after, (next value).Asks justified after) :
    (program >>= next).Asks justified entries :=
  first.bind (.of_forall _ fun after _ value _ => later value after)

theorem Asks.attempt {program : Async ω α} {entries : List (Entry ω)}
    (asks : program.Asks justified entries) : program.attempt.Asks justified entries := by
  induction program generalizing entries with
  | settled outcome => trivial
  | await call resume induction =>
      exact ⟨asks.1, fun answer => induction answer (asks.2 answer)⟩

end Async

/-! ## The system -/

/-- A state and the mappings that call it. -/
structure Sharing (ω : κ → Type) (α σ : Type) where
  state : σ
  mappings : List (Mapping ω α)

namespace Sharing

/-- What can happen: a mapping starts an item, or the state answers the call of an item as it
chooses. -/
inductive Event (χ : Type)
  | start (mapping index : Nat)
  | answer (mapping index : Nat) (choice : χ)

variable (serve : χ → ∀ call, Action σ (ω call))

/-- The next state, if the event can happen. -/
def step (sharing : Sharing ω α σ) : Event χ → Option (Sharing ω α σ)
  | .start position index =>
      sharing.mappings[position]?.bind fun mapping =>
        (mapping.step (.start index)).map fun after =>
          { sharing with mappings := sharing.mappings.set position after }
  | .answer position index choice =>
      sharing.mappings[position]?.bind fun mapping =>
        (mapping.items[index]?.bind Item.pending).bind fun called =>
          (mapping.step (.reply index fun call =>
            (Action.exec (serve choice call) sharing.state).1)).map fun after =>
              ⟨(Action.exec (serve choice called) sharing.state).2,
                sharing.mappings.set position after⟩

/-- Mappings over a shared state. -/
def system (α : Type) : System (Sharing ω α σ) (Event χ) := ⟨step serve⟩

/-- A state answers truthfully: after the answer to a justified call the calls that have been
answered still tell the truth, those of all other programs do as well, and what is always assumed
of the state stays in place. -/
structure Truthful (sound : σ → Prop) (truth : List (Entry ω) → σ → Prop)
    (justified : List (Entry ω) → κ → Prop) : Prop where
  keeps : ∀ choice call state entries, sound state → truth entries state →
    justified entries call → sound (Action.exec (serve choice call) state).2
  tells : ∀ choice call state entries, sound state → truth entries state →
    justified entries call →
      truth (entries ++ [⟨call, (Action.exec (serve choice call) state).1⟩])
        (Action.exec (serve choice call) state).2
  stays : ∀ choice call state entries, sound state → truth entries state →
    justified entries call → ∀ others, truth others state →
      truth others (Action.exec (serve choice call) state).2

/-- The state is as assumed, every item has been told the truth, and will make only justified
calls. -/
structure Knowing (sound : σ → Prop) (truth : List (Entry ω) → σ → Prop)
    (justified : List (Entry ω) → κ → Prop) (sharing : Sharing ω α σ) : Prop where
  sound : sound sharing.state
  known : ∀ mapping ∈ sharing.mappings, ∀ item ∈ mapping.items, truth item.log sharing.state
  asks : ∀ mapping ∈ sharing.mappings, ∀ item ∈ mapping.items,
    item.program.Asks justified item.log

section Runs

variable {serve} {sound : σ → Prop} {truth : List (Entry ω) → σ → Prop}
  {justified : List (Entry ω) → κ → Prop} {before after : Sharing ω α σ}

/-- Each answer has told a fact, which may depend on the calls that had been answered before. -/
def Facts (fact : List (Entry ω) → Entry ω → σ → Prop) (entries : List (Entry ω)) (state : σ) :
    Prop :=
  ∀ front entry, front ++ [entry] <+: entries → fact front entry state

theorem facts_nil {fact : List (Entry ω) → Entry ω → σ → Prop} (state : σ) :
    Facts fact [] state := by
  intro front entry before
  have bound := before.length_le
  simp at bound

theorem Facts.mem {fact : List (Entry ω) → Entry ω → σ → Prop} {entries : List (Entry ω)}
    {state : σ} (facts : Facts fact entries state) {entry : Entry ω} (told : entry ∈ entries) :
    ∃ front, front <+: entries ∧ fact front entry state := by
  obtain ⟨front, back, rfl⟩ := List.append_of_mem told
  refine ⟨front, List.prefix_append _ _, facts front entry ⟨back, ?_⟩⟩
  rw [List.append_assoc, List.singleton_append]

/-- Where each answer to a justified call tells its fact, and no such answer takes a fact away, all
facts are known. -/
theorem truthful_of_facts {fact : List (Entry ω) → Entry ω → σ → Prop}
    (keeps : ∀ choice call state entries, sound state → Facts fact entries state →
      justified entries call → sound (Action.exec (serve choice call) state).2)
    (tells : ∀ choice call state entries, sound state → Facts fact entries state →
      justified entries call →
        fact entries ⟨call, (Action.exec (serve choice call) state).1⟩
          (Action.exec (serve choice call) state).2)
    (stays : ∀ choice call state entries, sound state → Facts fact entries state →
      justified entries call → ∀ front entry, fact front entry state →
        fact front entry (Action.exec (serve choice call) state).2) :
    Truthful serve sound (Facts fact) justified where
  keeps := keeps
  tells choice call state entries start facts asked front entry before := by
    rcases List.prefix_concat_iff.mp before with same | earlier
    · obtain ⟨rfl, rfl⟩ := List.append_singleton_inj.mp same
      exact tells choice call state front start facts asked
    · exact stays choice call state entries start facts asked front entry
        (facts front entry earlier)
  stays choice call state entries start facts asked _ known front entry before :=
    stays choice call state entries start facts asked front entry (known front entry before)

/-- Programs that have not been told anything yet know only truths. -/
theorem knowing_fresh {state : σ} {mappings : List (Mapping ω α)} (start : sound state)
    (nothing : truth [] state)
    (fresh : ∀ mapping ∈ mappings, ∃ limit programs, mapping = .begin limit programs ∧
      ∀ program ∈ programs, program.Asks justified []) :
    Knowing sound truth justified ⟨state, mappings⟩ := by
  refine ⟨start, fun mapping member item own => ?_, fun mapping member item own => ?_⟩
  · obtain ⟨limit, programs, rfl, -⟩ := fresh mapping member
    obtain ⟨index, bound, rfl⟩ := List.mem_mapIdx.mp own
    exact nothing
  · obtain ⟨limit, programs, rfl, asks⟩ := fresh mapping member
    obtain ⟨index, bound, rfl⟩ := List.mem_mapIdx.mp own
    exact asks _ (List.getElem_mem bound)

theorem step_start {position index : Nat} (stepped : step serve before (.start position index) =
      some after) :
    ∃ mapping next, before.mappings[position]? = some mapping ∧
      mapping.step (.start index) = some next ∧
        after = { before with mappings := before.mappings.set position next } := by
  obtain ⟨mapping, found, moved⟩ := Option.bind_eq_some_iff.mp stepped
  obtain ⟨next, started, rfl⟩ := Option.map_eq_some_iff.mp moved
  exact ⟨mapping, next, found, started, rfl⟩

theorem step_answer {position index : Nat} {choice : χ}
    (stepped : step serve before (.answer position index choice) = some after) :
    ∃ mapping item next call resume, before.mappings[position]? = some mapping ∧
      mapping.items[index]? = some item ∧ item.program = .await call resume ∧
        mapping.step (.reply index fun call =>
          (Action.exec (serve choice call) before.state).1) = some next ∧
          after = ⟨(Action.exec (serve choice call) before.state).2,
            before.mappings.set position next⟩ := by
  obtain ⟨mapping, found, moved⟩ := Option.bind_eq_some_iff.mp stepped
  obtain ⟨call, asked, answered⟩ := Option.bind_eq_some_iff.mp moved
  obtain ⟨item, placed, pending⟩ := Option.bind_eq_some_iff.mp asked
  obtain ⟨next, replied, rfl⟩ := Option.map_eq_some_iff.mp answered
  obtain ⟨resume, awaits⟩ := Item.pending_eq_some.mp pending
  exact ⟨mapping, item, next, call, resume, found, placed, awaits, replied, rfl⟩

theorem Knowing.start (knowing : Knowing sound truth justified before) {position index : Nat}
    (stepped : step serve before (.start position index) = some after) :
    Knowing sound truth justified after := by
  obtain ⟨mapping, next, found, started, rfl⟩ := step_start stepped
  obtain ⟨item, placed, -, -, -, rfl⟩ := Mapping.step_start started
  have listed := List.mem_of_getElem? found
  have member := List.mem_of_getElem? placed
  refine ⟨knowing.sound, fun other present changed own => ?_, fun other present changed own => ?_⟩
  · rcases List.mem_or_eq_of_mem_set present with present | rfl
    · exact knowing.known other present changed own
    · rcases List.mem_or_eq_of_mem_set own with own | rfl
      · exact knowing.known mapping listed changed own
      · exact knowing.known mapping listed item member
  · rcases List.mem_or_eq_of_mem_set present with present | rfl
    · exact knowing.asks other present changed own
    · rcases List.mem_or_eq_of_mem_set own with own | rfl
      · exact knowing.asks mapping listed changed own
      · exact knowing.asks mapping listed item member

/-- The item that gets an answer still knows the truth, and so do all others. -/
theorem Knowing.answer (truthful : Truthful serve sound truth justified)
    (knowing : Knowing sound truth justified before) {position index : Nat} {choice : χ}
    (stepped : step serve before (.answer position index choice) = some after) :
    Knowing sound truth justified after := by
  obtain ⟨mapping, item, next, call, resume, found, placed, awaits, replied, rfl⟩ :=
    step_answer stepped
  obtain ⟨other, answered, same, reply, rfl⟩ := Mapping.step_reply replied
  obtain rfl := Option.some.inj (placed.symm.trans same)
  obtain ⟨-, -, -, asked, resumed, awaiting, goes, log⟩ := Item.reply_spec reply
  rw [awaits] at awaiting
  obtain ⟨rfl, continues⟩ := Async.await.inj awaiting
  obtain rfl := eq_of_heq continues
  have listed := List.mem_of_getElem? found
  have member := List.mem_of_getElem? placed
  have asks := knowing.asks mapping listed item member
  rw [awaits] at asks
  have truths := knowing.known mapping listed item member
  have stays := truthful.stays choice call before.state item.log knowing.sound truths asks.1
  refine ⟨truthful.keeps choice call before.state item.log knowing.sound truths asks.1,
    fun later present changed own => ?_, fun later present changed own => ?_⟩
  · rcases List.mem_or_eq_of_mem_set present with present | rfl
    · exact stays changed.log (knowing.known later present changed own)
    · rcases List.mem_or_eq_of_mem_set own with own | rfl
      · exact stays changed.log (knowing.known mapping listed changed own)
      · rw [log]
        exact truthful.tells choice call before.state item.log knowing.sound truths asks.1
  · rcases List.mem_or_eq_of_mem_set present with present | rfl
    · exact knowing.asks later present changed own
    · rcases List.mem_or_eq_of_mem_set own with own | rfl
      · exact knowing.asks mapping listed changed own
      · rw [goes, log]
        exact asks.2 _

/-- In every run, what the items have been told is true. -/
theorem knowing_run (truthful : Truthful serve sound truth justified) {events : List (Event χ)}
    (knowing : Knowing sound truth justified before)
    (execution : (system serve α).run events before = some after) :
    Knowing sound truth justified after := by
  have preserved : ∀ (before : Sharing ω α σ) event after, Knowing sound truth justified before →
      step serve before event = some after → Knowing sound truth justified after := by
    intro before event after knowing stepped
    cases event with
    | start position index => exact knowing.start stepped
    | answer position index choice => exact knowing.answer truthful stepped
  exact System.invariant_of_run preserved knowing execution

/-- Each mapping goes on from the one that was at its position, by a run of its own. -/
def Continues (before after : Sharing ω α σ) : Prop :=
  ∀ (position : Nat) (mapping : Mapping ω α), after.mappings[position]? = some mapping →
    ∃ initial, before.mappings[position]? = some initial ∧
      (Mapping.system ω α).Reaches initial mapping

theorem Continues.moved {middle : Sharing ω α σ} (continues : Continues before middle)
    {position : Nat} {mapping next : Mapping ω α} {event : Mapping.Event ω} {state : σ}
    (found : middle.mappings[position]? = some mapping) (stepped : mapping.step event = some next) :
    Continues before ⟨state, middle.mappings.set position next⟩ := by
  intro other last placed
  by_cases same : position = other
  · subst same
    obtain ⟨bound, -⟩ := List.getElem?_eq_some_iff.mp found
    obtain rfl := Option.some.inj ((List.getElem?_set_self bound).symm.trans placed)
    obtain ⟨initial, began, reaches⟩ := continues position mapping found
    exact ⟨initial, began, reaches.trans (.single stepped)⟩
  · exact continues other last ((List.getElem?_set_ne same).symm.trans placed)

theorem continues_run {events : List (Event χ)}
    (execution : (system serve α).run events before = some after) : Continues before after := by
  have preserved : ∀ (middle : Sharing ω α σ) event last, Continues before middle →
      step serve middle event = some last → Continues before last := by
    intro middle event last continues stepped
    cases event with
    | start position index =>
        obtain ⟨mapping, next, found, started, rfl⟩ := step_start stepped
        exact continues.moved found started
    | answer position index choice =>
        obtain ⟨mapping, item, next, call, resume, found, -, -, replied, rfl⟩ :=
          step_answer stepped
        exact continues.moved found replied
  exact System.invariant_of_run preserved (fun _ mapping found => ⟨mapping, found, .refl _ _⟩)
    execution

end Runs

end Sharing

end Steveo
