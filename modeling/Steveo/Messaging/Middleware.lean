import Mathlib.Data.Int.Order.Basic
import Mathlib.Logic.Function.Basic
import Steveo.Library.Execution

/-!
# Composed middleware

A producer and a runner wrap what they do into layers of middleware.  Each layer is handed a
function `next` that goes on to the following layer, and it may call that function at any time and
any number of times.  This file models one call of a composition, with every order in which the
layers can do so, and shows what holds in all of them.
-/

namespace Steveo

/-- A layer of middleware. -/
structure Middleware (η : Type) where
  publish : Option η
  consume : Option η

namespace Middleware

variable {η α : Type}

/-- What a call of `dispatch` does. -/
inductive Dispatched (η : Type)
  /-- There has been a call for the position. -/
  | refused
  /-- There is no function at the position. -/
  | idle
  | started (function : η)

/-- A call of `dispatch`. -/
structure Call (η : Type) where
  position : Nat
  /-- The number of the call whose function has called `next`; the first call has none. -/
  caller : Option Nat
  dispatched : Dispatched η

/-- How a function or a call of `dispatch` ends: it returns a promise, which settles, or it throws
instead. -/
inductive Completion (α : Type)
  | returns (promise : Except String (Option α))
  | throws (error : String)

/-- What one call of a composition has done. -/
structure Composition (η α : Type) where
  index : Int
  /-- The calls of `dispatch` in the order in which they were made. -/
  calls : List (Call η)
  /-- How the functions that the calls have started have ended. -/
  ended : Nat → Option (Completion α)

/-- A function that has been started calls `next`, or it ends. -/
inductive Event (α : Type)
  | next (caller : Nat)
  | ends (caller : Nat) (result : Completion α)

/-- How a call ends that has started a function: it returns the promise of the function, or one that
is rejected with what the function has thrown. -/
def settled : Completion α → Completion α
  | .returns promise => .returns promise
  | .throws err => .returns (.error err)

namespace Composition

/-- A further call. -/
def called (composition : Composition η α) (call : Call η) : Composition η α :=
  { composition with calls := composition.calls ++ [call] }

/-- How a call of `dispatch` has ended, if it has. -/
def completion (composition : Composition η α) (number : Nat) : Option (Completion α) :=
  composition.calls[number]?.bind fun call =>
    match call.dispatched with
    | .refused => some (.returns (.error "Error: next() called multiple times"))
    | .idle => some (.returns (.ok none))
    | .started _ => (composition.ended number).map settled

end Composition

section

variable (hook : Middleware η → Option η) (middleware : List (Middleware η)) (next : η)

/-- The function at a position: a hook, or after the last one what is wrapped. -/
def functionAt (i : Nat) : Option η :=
  if i = middleware.length then some next else middleware[i]?.bind hook

/-- What is done at a position that is reached for the first time. -/
def entered (i : Nat) : Dispatched η :=
  match functionAt hook middleware next i with
  | none => .idle
  | some fn => .started fn

/-- Go on to a position. -/
def dispatch (caller : Option Nat) (i : Nat) (composition : Composition η α) :
    Composition η α :=
  if i ≤ composition.index then
    composition.called ⟨i, caller, .refused⟩
  else
    { composition with index := i }.called ⟨i, caller, entered hook middleware next i⟩

/-- The composition once it has been called. -/
def begun : Composition η α := dispatch hook middleware next none 0 ⟨-1, [], fun _ => none⟩

/-- What the functions that have been started can do. -/
def compose : System (Composition η α) (Event α) where
  step composition
    | .next caller =>
        match composition.calls[caller]? with
        | some ⟨position, _, .started _⟩ =>
            some (dispatch hook middleware next (some caller) (position + 1) composition)
        | _ => none
    | .ends caller result =>
        match composition.calls[caller]?, composition.ended caller with
        | some ⟨_, _, .started _⟩, none =>
            some { composition with
              ended := Function.update composition.ended caller (some result) }
        | _, _ => none

end

/-- The composition of the hooks for publishing. -/
def composePublish (middleware : List (Middleware η)) (next : η) :
    System (Composition η α) (Event α) := compose Middleware.publish middleware next

/-- The composition of the hooks for consuming. -/
def composeConsume (middleware : List (Middleware η)) (next : η) :
    System (Composition η α) (Event α) := compose Middleware.consume middleware next

/-! ## What holds of every call -/

/-- A call has started a function. -/
def Call.Started (call : Call η) : Prop := ∃ fn, call.dispatched = .started fn

/-- A call was made by the function of an earlier call, which started it at the position. -/
def MadeFrom (composition : Composition η α) (position number : Nat) (call : Call η) : Prop :=
  ∃ (caller : Nat) (starter : Call η), call.caller = some caller ∧ caller < number ∧
    composition.calls[caller]? = some starter ∧ starter.Started ∧ starter.position = position

/-- The function at a position has called `next`. -/
def CalledNext (composition : Composition η α) (position : Nat) : Prop :=
  ∃ (number : Nat) (call : Call η), composition.calls[number]? = some call ∧
    MadeFrom composition position number call

/-- The layers run at most once and in order, around what they wrap. -/
structure InOrder (hook : Middleware η → Option η) (middleware : List (Middleware η)) (next : η)
    (composition : Composition η α) : Prop where
  /-- What is started at a position is the hook of that layer, or what is wrapped. -/
  function : ∀ call ∈ composition.calls, ∀ fn, call.dispatched = .started fn →
    functionAt hook middleware next call.position = some fn
  /-- No function is started twice. -/
  once : composition.calls.Pairwise fun earlier later =>
    earlier.position = later.position → ¬ later.Started
  /-- A function is started only after the one before it has called `next`. -/
  ordered : ∀ (number : Nat) (call : Call η), composition.calls[number]? = some call →
    call.Started → ∀ position, call.position = position + 1 →
      MadeFrom composition position number call
  /-- What is wrapped runs exactly if every layer has called `next`. -/
  wrapped : (∃ call ∈ composition.calls, call.position = middleware.length ∧ call.Started) ↔
    ∀ position < middleware.length, CalledNext composition position
  /-- Every further call of `next` by the same function is rejected and starts nothing. -/
  rejected : ∀ (number number' : Nat) (earlier later : Call η) (caller : Nat), number < number' →
    composition.calls[number]? = some earlier → composition.calls[number']? = some later →
    earlier.caller = some caller → later.caller = some caller →
      ¬ later.Started ∧ composition.completion number' =
        some (.returns (.error "Error: next() called multiple times"))
  /-- No call throws, whether its function throws or not. -/
  contained : ∀ number completion, composition.completion number = some completion →
    ∃ promise, completion = .returns promise

/-! ## One step -/

/-- What the calls made so far have in common. -/
structure Sound (hook : Middleware η → Option η) (middleware : List (Middleware η)) (next : η)
    (composition : Composition η α) : Prop where
  opened : 0 ≤ composition.index
  bounded : ∀ call ∈ composition.calls, call.position ≤ composition.index
  reached : ∀ position : Nat, position ≤ composition.index →
    ∃ call ∈ composition.calls, call.position = position ∧
      call.dispatched = entered hook middleware next position
  repeated : composition.calls.Pairwise fun earlier later =>
    earlier.position = later.position → later.dispatched = .refused
  chosen : ∀ call ∈ composition.calls,
    call.dispatched = .refused ∨ call.dispatched = entered hook middleware next call.position
  made : ∀ (number : Nat) (call : Call η), composition.calls[number]? = some call →
    call.caller = none ∧ call.position = 0 ∨
      ∃ position, call.position = position + 1 ∧ MadeFrom composition position number call

section

variable {hook : Middleware η → Option η} {middleware : List (Middleware η)} {next : η}
  {composition : Composition η α}

theorem sound_begun :
    Sound hook middleware next (begun hook middleware next : Composition η α) := by
  have start : (begun hook middleware next : Composition η α) =
      ⟨0, [⟨0, none, entered hook middleware next 0⟩], fun _ => none⟩ := rfl
  rw [start]
  exact
    { opened := le_rfl
      bounded := fun call member => by
        rw [List.mem_singleton.mp member]
        exact le_rfl
      reached := fun position reached => by
        obtain rfl : position = 0 := by
          simp only at reached
          omega
        exact ⟨_, List.mem_singleton_self _, rfl, rfl⟩
      repeated := List.pairwise_singleton _ _
      chosen := fun call member => by
        rw [List.mem_singleton.mp member]
        exact Or.inr rfl
      made := fun number call found => by
        have member := List.mem_of_getElem? found
        rw [List.mem_singleton.mp member]
        exact Or.inl ⟨rfl, rfl⟩ }

/-- What an earlier call has started does not change when further calls are made. -/
theorem MadeFrom.append {position number : Nat} {call : Call η}
    (made : MadeFrom composition position number call) {after : Composition η α}
    {calls : List (Call η)} (grown : after.calls = composition.calls ++ calls) :
    MadeFrom after position number call := by
  obtain ⟨caller, starter, by_caller, earlier, found, started, at_position⟩ := made
  refine ⟨caller, starter, by_caller, earlier, ?_, started, at_position⟩
  rw [grown, List.getElem?_append_left (List.getElem?_eq_some_iff.mp found).1]
  exact found

/-- A call of `dispatch` is refused if the position has been reached, and otherwise enters it. -/
theorem dispatch_cases (hook : Middleware η → Option η) (middleware : List (Middleware η))
    (next : η) (composition : Composition η α) (caller : Option Nat) (i : Nat) :
    ∃ dispatched,
      (dispatch hook middleware next caller i composition).calls =
        composition.calls ++ [⟨i, caller, dispatched⟩] ∧
      ((i ≤ composition.index ∧ dispatched = .refused ∧
          (dispatch hook middleware next caller i composition).index = composition.index) ∨
        (composition.index < i ∧ dispatched = entered hook middleware next i ∧
          (dispatch hook middleware next caller i composition).index = i)) := by
  rw [dispatch]
  split
  · rename_i again
    exact ⟨_, rfl, Or.inl ⟨again, rfl, rfl⟩⟩
  · rename_i first
    exact ⟨_, rfl, Or.inr ⟨Int.not_le.mp first, rfl, rfl⟩⟩

/-- A call is one of those made before, or the one added last. -/
theorem getElem?_concat {calls : List (Call η)} {added call : Call η} {number : Nat}
    (found : (calls ++ [added])[number]? = some call) :
    calls[number]? = some call ∨ number = calls.length ∧ call = added := by
  by_cases old : number < calls.length
  · exact Or.inl (List.getElem?_append_left old ▸ found)
  · rw [List.getElem?_append_right (Nat.not_lt.mp old)] at found
    obtain ⟨bound, same⟩ := List.getElem?_eq_some_iff.mp found
    have only : number - calls.length = 0 := Nat.lt_one_iff.mp bound
    refine Or.inr ⟨by omega, ?_⟩
    simpa [only] using same.symm

/-- A call of `next` keeps what the calls have in common. -/
theorem Sound.goOn (sound : Sound hook middleware next composition) {caller : Nat}
    {starter : Call η} (found : composition.calls[caller]? = some starter)
    (started : starter.Started) :
    Sound hook middleware next
      (dispatch hook middleware next (some caller) (starter.position + 1) composition) := by
  have within := sound.bounded starter (List.mem_of_getElem? found)
  have opened := sound.opened
  obtain ⟨dispatched, grown, outcome⟩ := dispatch_cases hook middleware next composition
    (some caller) (starter.position + 1)
  have kept : composition.index ≤
      (dispatch hook middleware next (some caller) (starter.position + 1) composition).index := by
    rcases outcome with ⟨-, -, same⟩ | ⟨above, -, same⟩
    · exact le_of_eq same.symm
    · rw [same]
      exact le_of_lt above
  constructor
  case opened =>
    exact le_trans opened kept
  case bounded =>
    intro call member
    rw [grown, List.mem_append, List.mem_singleton] at member
    rcases member with member | rfl
    · exact le_trans (sound.bounded call member) kept
    · rcases outcome with ⟨again, -, same⟩ | ⟨-, -, same⟩
      · rw [same]
        exact again
      · exact le_of_eq same.symm
  case reached =>
    intro position reached
    rw [grown]
    rcases outcome with ⟨-, -, same⟩ | ⟨above, rfl, same⟩
    · rw [same] at reached
      obtain ⟨call, member, rest⟩ := sound.reached position reached
      exact ⟨call, List.mem_append_left _ member, rest⟩
    · by_cases before : (position : Int) ≤ composition.index
      · obtain ⟨call, member, rest⟩ := sound.reached position before
        exact ⟨call, List.mem_append_left _ member, rest⟩
      · -- The index has gone up by one, to the position of the added call.
        obtain rfl : position = starter.position + 1 := by omega
        exact ⟨_, List.mem_append_right _ (List.mem_singleton_self _), rfl, rfl⟩
  case repeated =>
    rw [grown]
    refine List.pairwise_append.mpr ⟨sound.repeated, List.pairwise_singleton _ _, ?_⟩
    intro earlier member added is_added same
    obtain rfl := List.mem_singleton.mp is_added
    rcases outcome with ⟨-, rfl, -⟩ | ⟨above, -, -⟩
    · rfl
    · -- No call before had a position above the index.
      have below := sound.bounded earlier member
      rw [same] at below
      exact absurd below (Int.not_le.mpr above)
  case chosen =>
    intro call member
    rw [grown, List.mem_append, List.mem_singleton] at member
    rcases member with member | rfl
    · exact sound.chosen call member
    · exact outcome.imp (fun refused => refused.2.1) (fun entered => entered.2.1)
  case made =>
    intro number call at_number
    rw [grown] at at_number
    rcases getElem?_concat at_number with before | ⟨rfl, rfl⟩
    · refine (sound.made number call before).imp_right ?_
      rintro ⟨position, same, made⟩
      exact ⟨position, same, made.append grown⟩
    · have earlier := (List.getElem?_eq_some_iff.mp found).1
      refine Or.inr ⟨starter.position, rfl, caller, starter, rfl, earlier, ?_, started, rfl⟩
      rw [grown, List.getElem?_append_left earlier]
      exact found

/-- Nothing that can happen breaks what the calls have in common. -/
theorem Sound.step (sound : Sound hook middleware next composition) {event : Event α}
    {after : Composition η α}
    (happens : (compose hook middleware next).step composition event = some after) :
    Sound hook middleware next after := by
  cases event with
  | next caller =>
      simp only [compose] at happens
      split at happens
      · rename_i position by_caller fn found
        obtain rfl := Option.some.inj happens
        exact sound.goOn found ⟨fn, rfl⟩
      · cases happens
  | ends caller result =>
      simp only [compose] at happens
      split at happens
      · obtain rfl := Option.some.inj happens
        exact ⟨sound.opened, sound.bounded, sound.reached, sound.repeated, sound.chosen, sound.made⟩
      · cases happens

/-- What the calls have in common in every run. -/
theorem Sound.run {events : List (Event α)}
    (executed : (compose hook middleware next).run events (begun hook middleware next) =
      some composition) :
    Sound hook middleware next composition :=
  System.invariant_of_run (fun _ _ _ sound happens => Sound.step sound happens) sound_begun executed

/-! ## What follows for the layers -/

/-- A call that a function made goes to the position after that of the function. -/
theorem Sound.position_of_caller (sound : Sound hook middleware next composition) {caller : Nat}
    {call : Call η} (member : call ∈ composition.calls) (by_caller : call.caller = some caller) :
    ∃ starter, composition.calls[caller]? = some starter ∧
      call.position = starter.position + 1 := by
  obtain ⟨number, found⟩ := List.mem_iff_getElem?.mp member
  rcases sound.made number call found with ⟨first, -⟩ | ⟨position, same, other, starter, by_other,
    -, started_by, -, rfl⟩
  · cases first.symm.trans by_caller
  · obtain rfl := Option.some.inj (by_other.symm.trans by_caller)
    exact ⟨starter, started_by, same⟩

/-- A layer has called `next` exactly if the position after it has been reached. -/
theorem Sound.calledNext_iff (sound : Sound hook middleware next composition) (position : Nat) :
    CalledNext composition position ↔ (position + 1 : Nat) ≤ composition.index := by
  constructor
  · rintro ⟨number, call, found, caller, starter, by_caller, -, started_by, -, rfl⟩
    have member := List.mem_of_getElem? found
    obtain ⟨starter', started_by', same⟩ := sound.position_of_caller member by_caller
    obtain rfl := Option.some.inj (started_by'.symm.trans started_by)
    rw [← same]
    exact sound.bounded call member
  · intro reached
    obtain ⟨call, member, at_position, -⟩ := sound.reached (position + 1) reached
    obtain ⟨number, found⟩ := List.mem_iff_getElem?.mp member
    rcases sound.made number call found with ⟨-, first⟩ | ⟨position', same, made⟩
    · omega
    · obtain rfl : position' = position := by omega
      exact ⟨number, call, found, made⟩

/-- What is wrapped runs exactly if the position after the last layer has been reached. -/
theorem Sound.wrapped_iff (sound : Sound hook middleware next composition) :
    (∃ call ∈ composition.calls, call.position = middleware.length ∧ call.Started) ↔
      middleware.length ≤ composition.index := by
  constructor
  · rintro ⟨call, member, at_end, -⟩
    rw [← at_end]
    exact sound.bounded call member
  · intro reached
    obtain ⟨call, member, at_end, entered⟩ := sound.reached middleware.length reached
    refine ⟨call, member, at_end, next, ?_⟩
    rw [entered, Middleware.entered, functionAt, if_pos rfl]

/-- Whatever the layers do, they run at most once and in order. -/
theorem Sound.inOrder (sound : Sound hook middleware next composition) :
    InOrder hook middleware next composition where
  function call member fn started := by
    rcases sound.chosen call member with refused | entered
    · cases refused.symm.trans started
    · rw [started, Middleware.entered] at entered
      split at entered
      · cases entered
      · rename_i chosen at_position
        rw [at_position, Dispatched.started.inj entered]
  once := sound.repeated.imp fun refused same started => by
    obtain ⟨fn, started⟩ := started
    cases (refused same).symm.trans started
  ordered number call found _ position at_position := by
    rcases sound.made number call found with ⟨-, first⟩ | ⟨position', same, made⟩
    · omega
    · obtain rfl : position' = position := by omega
      exact made
  wrapped := by
    rw [sound.wrapped_iff]
    constructor
    · intro reached position before
      rw [sound.calledNext_iff]
      omega
    · intro called
      by_cases none_before : middleware.length = 0
      · rw [none_before]
        exact sound.opened
      · have last := (sound.calledNext_iff (middleware.length - 1)).mp
          (called (middleware.length - 1) (by omega))
        omega
  rejected number number' earlier later caller before found found' by_caller by_caller' := by
    obtain ⟨starter, started_by, same⟩ :=
      sound.position_of_caller (List.mem_of_getElem? found) by_caller
    obtain ⟨starter', started_by', same'⟩ :=
      sound.position_of_caller (List.mem_of_getElem? found') by_caller'
    obtain rfl := Option.some.inj (started_by.symm.trans started_by')
    obtain ⟨bound, rfl⟩ := List.getElem?_eq_some_iff.mp found
    obtain ⟨bound', rfl⟩ := List.getElem?_eq_some_iff.mp found'
    have refused := List.pairwise_iff_getElem.mp sound.repeated number number' bound bound' before
      (same.trans same'.symm)
    constructor
    · rintro ⟨fn, started⟩
      cases refused.symm.trans started
    · rw [Composition.completion, found', Option.bind_some, refused]
  contained number completion ended := by
    obtain ⟨call, found, ended⟩ := Option.bind_eq_some_iff.mp ended
    cases dispatched : call.dispatched with
    | refused =>
        rw [dispatched] at ended
        exact ⟨_, (Option.some.inj ended).symm⟩
    | idle =>
        rw [dispatched] at ended
        exact ⟨_, (Option.some.inj ended).symm⟩
    | started fn =>
        rw [dispatched] at ended
        obtain ⟨result, -, rfl⟩ := Option.map_eq_some_iff.mp ended
        cases result with
        | returns promise => exact ⟨_, rfl⟩
        | throws err => exact ⟨_, rfl⟩

end

/-- However the layers call `next`, publishing and consuming run them at most once and in order,
and what they wrap exactly if they all go on. -/
theorem composed_in_order (middleware : List (Middleware η)) (next : η) (events : List (Event α)) :
    (∀ composition, (composePublish middleware next).run events
        (begun Middleware.publish middleware next) = some composition →
      InOrder Middleware.publish middleware next composition) ∧
    (∀ composition, (composeConsume middleware next).run events
        (begun Middleware.consume middleware next) = some composition →
      InOrder Middleware.consume middleware next composition) :=
  ⟨fun _ executed => (Sound.run executed).inOrder, fun _ executed => (Sound.run executed).inOrder⟩

/-- A layer that calls `next` twice, before and after it has returned, and one that does not call
it. -/
theorem twice_composed : ∃ composition : Composition String Unit,
    (composePublish [⟨some "first", none⟩, ⟨some "second", none⟩] "send").run
        [.next 0, .ends 0 (.returns (.ok none)), .next 0]
        (begun Middleware.publish [⟨some "first", none⟩, ⟨some "second", none⟩] "send") =
      some composition ∧
    InOrder Middleware.publish [⟨some "first", none⟩, ⟨some "second", none⟩] "send" composition ∧
    composition.calls.map (fun call => call.position) = [0, 1, 1] :=
  ⟨_, rfl, (composed_in_order _ _ [.next 0, .ends 0 (.returns (.ok none)), .next 0]).1 _ rfl, rfl⟩

end Middleware

end Steveo
