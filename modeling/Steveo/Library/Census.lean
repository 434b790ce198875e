import Steveo.Library.Containment
import Steveo.Library.Draining

/-!
# The terms of a mapping at each stage

The items of a mapping are made from terms.  This file says which terms have items at some stage,
and how that changes when one item does.  A mapping whose programs observe their outcomes is never
rejected, so that in the end every item has been started and has settled.
-/

namespace Steveo

variable {κ : Type} {ω : κ → Type} {α τ : Type}

open Async

/-- A program makes only calls of the kinds that all calls are of. -/
theorem Async.makes_of_forall {allowed : κ → Prop} (all : ∀ call, allowed call)
    (program : Async ω α) : program.Makes allowed := by
  induction program with
  | settled outcome => trivial
  | await call resume induction => exact ⟨all call, induction⟩

namespace Item

/-- An item that has not been started. -/
def waiting (item : Item ω α) : Bool := !item.started

/-- An item that has been started and has not settled. -/
def running (item : Item ω α) : Bool := item.started && !item.settled

end Item

namespace Mapping

/-- The terms whose items are at a stage. -/
def termsAt (terms : List τ) (mapping : Mapping ω α) (stage : Item ω α → Bool) : List τ :=
  ((terms.zip mapping.items).filter fun pair => stage pair.2).map Prod.fst

/-! ## One item changes -/

/-- Replacing an element of a list replaces a pair of the lists zipped together. -/
theorem zip_split {σ : Type} {terms : List τ} {items : List σ} {index : Nat} {term : τ} {item : σ}
    (found : items[index]? = some item) (named : terms[index]? = some term) :
    ∃ front back, terms.zip items = front ++ (term, item) :: back ∧
      ∀ next, terms.zip (items.set index next) = front ++ (term, next) :: back := by
  induction terms generalizing items index with
  | nil => cases named
  | cons first terms induction =>
      cases items with
      | nil => cases found
      | cons other items =>
          cases index with
          | zero =>
              obtain rfl := Option.some.inj found
              obtain rfl := Option.some.inj named
              exact ⟨[], terms.zip items, rfl, fun _ => rfl⟩
          | succ index =>
              rw [List.getElem?_cons_succ] at found named
              obtain ⟨front, back, same, changed⟩ := induction found named
              refine ⟨(first, other) :: front, back, ?_, fun next => ?_⟩
              · rw [List.zip_cons_cons, same, List.cons_append]
              · rw [List.set_cons_succ, List.zip_cons_cons, changed next, List.cons_append]

section Changes

variable {terms : List τ} {mapping : Mapping ω α} {index : Nat} {term : τ} {item next : Item ω α}
  (found : mapping.items[index]? = some item) (named : terms[index]? = some term)

include found named

/-- The terms at a stage, with the one whose item changes. -/
theorem termsAt_split (stage : Item ω α → Bool) : ∃ front back,
    termsAt terms mapping stage = front ++ (if stage item then [term] else []) ++ back ∧
      ∀ next, termsAt terms (mapping.put index next) stage =
        front ++ (if stage next then [term] else []) ++ back := by
  obtain ⟨front, back, same, changed⟩ := zip_split found named
  refine ⟨(front.filter fun pair => stage pair.2).map Prod.fst,
    (back.filter fun pair => stage pair.2).map Prod.fst, ?_, fun next => ?_⟩
  · rw [termsAt, same, List.filter_append, List.filter_cons, List.map_append, List.append_assoc]
    cases stage item <;> simp
  · have replaced : (terms.zip (mapping.put index next).items) = front ++ (term, next) :: back :=
      changed next
    rw [termsAt, replaced, List.filter_append, List.filter_cons, List.map_append,
      List.append_assoc]
    cases stage next <;> simp

/-- An item that comes to a stage adds its term. -/
theorem termsAt_enter {stage : Item ω α → Bool} (out : stage item = false)
    (entered : stage next = true) :
    (termsAt terms (mapping.put index next) stage).Perm (term :: termsAt terms mapping stage) := by
  obtain ⟨front, back, same, changed⟩ := termsAt_split found named stage
  rw [changed next, same, entered, out]
  simp

/-- An item that leaves a stage takes its term away. -/
theorem termsAt_leave [DecidableEq τ] {stage : Item ω α → Bool} (inside : stage item = true)
    (left : stage next = false) :
    (termsAt terms (mapping.put index next) stage).Perm
      ((termsAt terms mapping stage).erase term) := by
  obtain ⟨front, back, same, changed⟩ := termsAt_split found named stage
  have middle : (front ++ term :: back).Perm (term :: (front ++ back)) := List.perm_middle
  have erased := middle.erase term
  rw [List.erase_cons_head] at erased
  rw [changed next, same, inside, left]
  simpa using erased.symm

/-- An item that does not change its stage keeps the terms. -/
theorem termsAt_stay {stage : Item ω α → Bool} (unchanged : stage next = stage item) :
    termsAt terms (mapping.put index next) stage = termsAt terms mapping stage := by
  obtain ⟨front, back, same, changed⟩ := termsAt_split found named stage
  rw [changed next, same, unchanged]

/-- The term of an item is among those at its stage. -/
theorem mem_termsAt {stage : Item ω α → Bool} (here : stage item = true) :
    term ∈ termsAt terms mapping stage := by
  obtain ⟨front, back, same, -⟩ := termsAt_split found named stage
  rw [same, here]
  simp

end Changes

/-! ## How many items are at a stage -/

section Counts

variable {terms : List τ} {mapping : Mapping ω α} {stage : Item ω α → Bool}

theorem length_termsAt (same : mapping.items.length = terms.length) :
    (termsAt terms mapping stage).length = mapping.items.countP stage := by
  have kept : (terms.zip mapping.items).map Prod.snd = mapping.items :=
    List.map_snd_zip same.le
  calc
    (termsAt terms mapping stage).length =
        (terms.zip mapping.items).countP (stage ∘ Prod.snd) := by
      rw [termsAt, List.length_map, List.countP_eq_length_filter]
      rfl
    _ = mapping.items.countP stage := by rw [← List.countP_map, kept]

theorem termsAt_eq_nil (none : ∀ item ∈ mapping.items, stage item = false) :
    termsAt terms mapping stage = [] := by
  refine List.map_eq_nil_iff.mpr (List.filter_eq_nil_iff.mpr fun pair member => ?_)
  rw [none pair.2 (List.of_mem_zip member).2]
  exact Bool.false_ne_true

end Counts

/-! ## The first items -/

section First

variable {limit : Nat} {programs : List (Async ω α)}

/-- A mapping whose first items have been started. -/
def first (limit count : Nat) (programs : List (Async ω α)) : Mapping ω α where
  limit := limit
  items := programs.mapIdx fun index program => Item.fresh (index < count) program

theorem getElem?_first (limit count index : Nat) (programs : List (Async ω α)) :
    (first limit count programs).items[index]? =
      programs[index]?.map (Item.fresh (index < count)) := by
  rw [first, List.getElem?_mapIdx]

theorem inFlight_first (limit count : Nat) (programs : List (Async ω α)) :
    (first limit count programs).inFlight ≤ count := by
  have none : ((first limit count programs).items.drop count).countP Item.inFlight = 0 := by
    refine List.countP_eq_zero.mpr fun item member => Bool.eq_false_iff.mp ?_
    obtain ⟨index, placed⟩ := List.mem_iff_getElem?.mp member
    rw [List.getElem?_drop, getElem?_first] at placed
    obtain ⟨program, -, rfl⟩ := Option.map_eq_some_iff.mp placed
    rw [decide_eq_false (by omega)]
    rfl
  rw [inFlight, ← List.take_append_drop count (first limit count programs).items,
    List.countP_append, none]
  exact List.countP_le_length.trans (List.length_take_le _ _)

/-- One more item can be started while the limit allows. -/
theorem step_first {admits risky : ∀ call, Except String (ω call) → Prop} {count : Nat}
    {program : Async ω α} (found : programs[count]? = some program) (within : count < limit)
    (contained : (first limit count programs).Contained admits risky) :
    (system ω α).step (first limit count programs) (.start count) =
      some (first limit (count + 1) programs) := by
  have placed := getElem?_first limit count count programs
  rw [found, decide_eq_false (Nat.lt_irrefl count), Option.map_some] at placed
  have room := (inFlight_first limit count programs).trans_lt within
  show Option.bind _ _ = _
  rw [placed, Option.bind_some, if_pos ⟨rfl, contained.not_rejected, room⟩]
  refine congrArg some (congrArg (Mapping.mk limit) (List.ext_getElem? fun index => ?_))
  show _ = (first limit (count + 1) programs).items[index]?
  have later := getElem?_first limit (count + 1) index programs
  have earlier := getElem?_first limit count index programs
  obtain ⟨bound, -⟩ := List.getElem?_eq_some_iff.mp placed
  by_cases here : count = index
  · subst here
    rw [List.getElem?_set_self bound, later, found, decide_eq_true (Nat.lt_succ_self count)]
    rfl
  · rw [List.getElem?_set_ne here, earlier, later]
    have same : decide (index < count) = decide (index < count + 1) :=
      decide_eq_decide.mpr (by omega)
    rw [same]

/-- A mapping begins by starting its first items one after the other. -/
theorem begin_reached {admits risky : ∀ call, Except String (ω call) → Prop} (limited : limit ≠ 0)
    (contained : ∀ program ∈ programs, program.Contains admits risky) :
    (system ω α).Reaches (first limit 0 programs) (begin limit programs) := by
  have steps : ∀ count ≤ limit,
      (system ω α).Reaches (first limit 0 programs) (first limit count programs) := by
    intro count
    induction count with
    | zero => exact fun _ => .refl _ _
    | succ count induction =>
        intro within
        refine (induction (by omega)).trans ?_
        cases found : programs[count]? with
        | some program =>
            have safe : (first limit count programs).Contained admits risky := by
              intro item member
              obtain ⟨index, bound, rfl⟩ := List.mem_mapIdx.mp member
              exact contained _ (List.getElem_mem bound)
            exact .single (step_first found within safe)
        | none =>
            have same : first limit (count + 1) programs = first limit count programs := by
              refine congrArg (Mapping.mk limit) (List.mapIdx_eq_mapIdx_iff.mpr ?_)
              intro index bound
              have beyond := List.getElem?_eq_none_iff.mp found
              rw [decide_eq_decide.mpr (show index < count + 1 ↔ index < count by omega)]
            rw [same]
            exact .refl _ _
  have whole : first limit limit programs = begin limit programs := by
    refine congrArg (Mapping.mk limit) (congrArg (List.mapIdx · programs) ?_)
    funext index program
    rw [decide_eq_false limited, Bool.false_or]
  exact whole ▸ steps limit le_rfl

end First

/-! ## Programs that observe their outcomes -/

section Observed

variable {β : Type} {limit : Nat} {programs : List (Async ω β)} {events : List (Event ω)}
  {final : Mapping ω (Except String β)}

/-- A mapping whose programs observe their outcomes contains all errors. -/
theorem contained_observed
    (execution : (system ω (Except String β)).run events (begin limit (programs.map attempt)) =
      some final) : final.Contained (fun _ _ => True) fun _ _ => False := by
  have start : (begin limit (programs.map attempt)).Contained (fun _ _ => True)
      fun _ _ => False := by
    refine contained_begin fun program member => ?_
    obtain ⟨inner, -, rfl⟩ := List.mem_map.mp member
    exact contains_attempt inner (makes_of_forall (fun _ _ => id) inner)
  refine System.invariant_of_run (fun before event after contained stepped => ?_) start execution
  cases event with
  | start index => exact contained.start stepped
  | reply index environment =>
      obtain ⟨-, -, -, -, -, kept⟩ := contained.reply (fun _ => trivial) stepped
      exact kept id

/-- In the end every observed program has been started and has settled. -/
theorem observed_done (answers : ∀ call, Except String (ω call)) (limited : limit ≠ 0)
    (execution : (system ω (Except String β)).run events (begin limit (programs.map attempt)) =
      some final) (finished : final.Finished) :
    ∀ item ∈ final.items, item.done = true := by
  have unrejected := (contained_observed execution).not_rejected
  have kept : final.limit ≠ 0 := by rwa [limit_run execution]
  intro item member
  have started := finished.started answers kept unrejected item member
  exact Bool.and_eq_true_iff.mpr ⟨started, finished.quiescent answers item member started⟩

end Observed

end Mapping

end Steveo
