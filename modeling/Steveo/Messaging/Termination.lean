import Steveo.Messaging.Stopping

/-!
# What goes on after an SQS runner has terminated

The runner terminates its manager between two passes, when it would ask for the next one.  A pass
waits for the messages of its batches, except where a batch is given up: a message of it has been
rejected, or does not parse.
-/

namespace Steveo

namespace Polling

/-- A handling has neither ended nor been rejected. -/
def State.Working (state : State) (id : Nat) : Prop :=
  ∃ stage, state.stageOf id = some stage ∧ stage ≠ .done ∧ stage ≠ .rejected

/-- The handlings of the batch that is given up in an event. -/
def givesUp (before : State) : Event → List Nat
  | .abandon pass index =>
      match before.subscription pass index with
      | some ⟨_, .receiving _ handled⟩ => handled
      | _ => []
  | _ => []

/-- The events of one call of `process`, whose manager is given the time that it needs. -/
def Event.InTime : Event → Prop
  | .start _ | .forceTerminate => False
  | _ => True

/-- A handling belongs to a batch that is being received. -/
def State.Attends (state : State) (id : Nat) : Prop :=
  ∃ pass index topic messages handled,
    state.subscription pass index = some ⟨topic, .receiving messages handled⟩ ∧ id ∈ handled

/-- There is one pass at most or the timer of the next one, nothing of both once the manager has
terminated, and every handling at work is attended or has been given up. -/
structure Attended (given : List Nat) (state : State) : Prop where
  single : state.passes.length + (if state.timer then 1 else 0) ≤ 1
  ended : state.manager = .terminated → state.passes = [] ∧ state.timer = false
  attended : ∀ id, state.Working id → id ∈ given ∨ state.Attends id

section Steps

variable {η : Type} {setup : Setup η} {given more : List Nat} {before after : State}

theorem Attended.congr (attended : Attended given before) (passes : after.passes = before.passes)
    (timer : after.timer = before.timer) (handlings : after.handlings = before.handlings)
    (manager : after.manager = .terminated → before.manager = .terminated) :
    Attended given after := by
  refine ⟨by rw [passes, timer]; exact attended.single, fun terminated => ?_, fun id working => ?_⟩
  · rw [passes, timer]
    exact attended.ended (manager terminated)
  · rw [State.Working, State.stageOf, handlings] at working
    simp only [State.Attends, State.subscription, passes]
    exact attended.attended id working

/-- Without passes the runner asks for the next one or terminates. -/
theorem Attended.poll (idle : before.passes = [])
    (attended : ∀ id, before.Working id → id ∈ given) : Attended given before.poll := by
  rw [State.poll]
  split
  · exact ⟨by simp [idle], fun _ => ⟨idle, rfl⟩, fun id working => .inl (attended id working)⟩
  · rename_i active
    refine ⟨by simp [idle], fun terminated => ?_, fun id working => .inl (attended id working)⟩
    have terminated : before.manager = .terminated := terminated
    simp [terminated, RunnerState.shouldTerminate] at active

theorem Attended.process (idle : before.passes = []) (timer : before.timer = false)
    (attended : ∀ id, before.Working id → id ∈ given) (subscriptions : List String) :
    Attended given (before.process subscriptions) := by
  rw [State.process]
  split
  · exact .poll idle attended
  · split
    · exact .poll idle attended
    · rename_i active
      refine ⟨by simp [idle, timer], fun terminated => ?_,
        fun id working => .inl (attended id working)⟩
      have terminated : before.manager = .terminated := terminated
      simp [terminated, RunnerState.shouldTerminate] at active

/-- Going on with a topic keeps the handlings of its batch that are at work, or gives them up. -/
theorem Attended.setWork (attended : Attended given before) (pass index : Nat) (work : Work)
    (keeps : ∀ topic messages handled,
      before.subscription pass index = some ⟨topic, .receiving messages handled⟩ →
        ∀ id ∈ handled, before.Working id → id ∈ more ∨
          ∃ messages handled, work = .receiving messages handled ∧ id ∈ handled) :
    Attended (given ++ more) (before.setWork pass index work) := by
  refine ⟨?_, fun terminated => ?_, fun id working => ?_⟩
  · rw [State.setWork, List.length_modify]
    exact attended.single
  · obtain ⟨idle, timer⟩ := attended.ended terminated
    exact ⟨by simp [State.setWork, idle], timer⟩
  · rcases attended.attended id working with known | ⟨other, position, topic, messages, handled,
      found, own⟩
    · exact .inl (List.mem_append_left _ known)
    · by_cases same : pass = other ∧ index = position
      · obtain ⟨rfl, rfl⟩ := same
        rcases keeps topic messages handled found id own working with
          left | ⟨rest, numbers, rfl, kept⟩
        · exact .inl (List.mem_append_right _ left)
        · refine .inr ⟨pass, index, topic, rest, numbers, ?_, kept⟩
          rw [subscription_setWork, if_pos ⟨rfl, rfl⟩, found]
          rfl
      · refine .inr ⟨other, position, topic, messages, handled, ?_, own⟩
        rw [subscription_setWork, if_neg same, found]

/-- A new handling is attended if its number is. -/
theorem Attended.longer (attended : Attended given before) (handling : Handling)
    (attends : before.Attends before.handlings.length) :
    Attended given { before with handlings := before.handlings ++ [handling] } := by
  refine ⟨attended.single, attended.ended, fun id ⟨stage, placed, working⟩ => ?_⟩
  obtain ⟨other, found, rfl⟩ := Option.map_eq_some_iff.mp placed
  rcases Nat.lt_or_ge id before.handlings.length with old | new
  · rw [List.getElem?_append_left old] at found
    refine attended.attended id ⟨other.stage, ?_, working⟩
    rw [State.stageOf, found, Option.map_some]
  · have bound := (List.getElem?_eq_some_iff.mp found).1
    rw [List.length_append, List.length_singleton] at bound
    obtain rfl : id = before.handlings.length := by omega
    exact .inr attends

/-- A handling is at work when it is answered. -/
theorem working_of_answer {id : Nat} {handling : Handling} {fulfilled : Bool}
    {next : Stage × List Deed} (found : before.handlings[id]? = some handling)
    (answers : handling.answer setup fulfilled = some next) : before.Working id := by
  refine ⟨handling.stage, by rw [State.stageOf, found, Option.map_some], ?_, ?_⟩
  · intro done
    simp [Handling.answer, done] at answers
  · intro rejected
    simp [Handling.answer, rejected] at answers

theorem Attended.moveOn (attended : Attended given before) {id : Nat} {handling : Handling}
    {fulfilled : Bool} {next : Stage × List Deed} (found : before.handlings[id]? = some handling)
    (answers : handling.answer setup fulfilled = some next) :
    Attended given (before.moveOn id handling next) := by
  refine ⟨attended.single, attended.ended, fun other working => ?_⟩
  have worked : before.Working other := by
    by_cases same : id = other
    · exact same ▸ working_of_answer found answers
    · obtain ⟨stage, placed, active⟩ := working
      refine ⟨stage, ?_, active⟩
      rwa [State.stageOf, State.moveOn, List.getElem?_set_ne same] at placed
  exact attended.attended other worked

/-- No handling of a batch is at work that has settled. -/
theorem not_working_of_unsettled {handled : List Nat} (none : before.unsettled handled = 0)
    {id : Nat} (own : id ∈ handled) : ¬ before.Working id := by
  rintro ⟨stage, placed, unfinished, unrejected⟩
  have settled := List.countP_eq_zero.mp none id own
  rw [placed] at settled
  simp [unfinished, unrejected] at settled

/-- A pass that has finished attends no handling. -/
theorem not_attends_of_allFinished {subscriptions : List Subscription}
    (alone : before.passes = [subscriptions]) (finished : allFinished subscriptions = true)
    (id : Nat) : ¬ before.Attends id := by
  rintro ⟨pass, index, topic, messages, handled, found, -⟩
  obtain ⟨whole, present, placed⟩ := Option.bind_eq_some_iff.mp found
  rw [alone] at present
  obtain rfl := List.mem_singleton.mp (List.mem_of_getElem? present)
  cases List.all_eq_true.mp finished _ (List.mem_of_getElem? placed)

/-- A message that is taken is attended with its batch. -/
theorem Attended.take (attended : Attended given before) {pass index : Nat} {topic : String}
    {messages : List SqsMessage} {handled : List Nat}
    (found : before.subscription pass index = some ⟨topic, .receiving messages handled⟩)
    (message : SqsMessage) (rest : List SqsMessage) :
    Attended given (takeMessage setup before pass index topic message rest handled) := by
  have goesOn : Attended (given ++ []) (before.setWork pass index
      (.receiving rest (handled ++ [before.handlings.length]))) := by
    refine attended.setWork pass index _ fun topic messages known present id member _ => ?_
    cases found.symm.trans present
    exact .inr ⟨rest, _, rfl, List.mem_append_left _ member⟩
  rw [List.append_nil] at goesOn
  refine goesOn.longer _ ⟨pass, index, topic, rest, handled ++ [before.handlings.length], ?_,
    List.mem_append_right _ (List.mem_singleton_self _)⟩
  rw [subscription_setWork, if_pos ⟨rfl, rfl⟩, found]
  rfl

/-- The timer is up only between two passes. -/
theorem Attended.tick (attended : Attended given before) (timer : before.timer = true)
    (subscriptions : List String) :
    Attended given ({ before with timer := false }.process subscriptions) := by
  have single := attended.single
  rw [if_pos timer] at single
  have idle : before.passes = [] := List.eq_nil_of_length_eq_zero (by omega)
  have still : State.passes { before with timer := false } = [] := idle
  refine .process still rfl (fun id working => ?_) subscriptions
  rcases attended.attended id working with known | ⟨pass, index, topic, messages, handled, found, -⟩
  · exact known
  · simp [State.subscription, idle] at found

/-- The pass that is closed is the only one. -/
theorem Attended.close (attended : Attended given before) {pass : Nat}
    {subscriptions : List Subscription} (found : before.passes[pass]? = some subscriptions)
    (finished : allFinished subscriptions = true) :
    Attended given { before with passes := before.passes.eraseIdx pass }.poll := by
  obtain ⟨rfl, alone⟩ : pass = 0 ∧ before.passes = [subscriptions] := by
    have single := attended.single
    rcases passes : before.passes with _ | ⟨first, _ | ⟨second, rest⟩⟩
    · simp [passes] at found
    · rw [passes] at found
      obtain rfl := List.mem_singleton.mp (List.mem_of_getElem? found)
      exact ⟨by simpa using (List.getElem?_eq_some_iff.mp found).1, rfl⟩
    · simp only [passes, List.length_cons] at single
      omega
  refine .poll (by simp [alone]) fun id working => ?_
  exact (attended.attended id working).resolve_right
    (not_attends_of_allFinished alone finished id)

theorem attended_step (plain : setup.hasMiddleware = false) (attended : Attended given before)
    {event : Event} (inTime : event.InTime)
    (stepped : step setup before event = some after) :
    Attended (given ++ givesUp before event) after := by
  have keeps : ∀ {state}, Attended given state → Attended (given ++ []) state := by simp
  cases step_turn stepped with
  | start _ => exact inTime.elim
  | forceTerminate _ => exact inTime.elim
  | stop =>
      refine keeps (attended.congr rfl rfl rfl fun terminated => ?_)
      dsimp only at terminated
      split at terminated
      · exact terminated
      · contradiction
  | pause | resume =>
      exact keeps (attended.congr rfl rfl rfl fun terminated => by contradiction)
  | tick timer _ => exact keeps (attended.tick timer _)
  | @fetch pass index _ waiting =>
      refine attended.setWork pass index _ fun topic messages handled found => ?_
      cases waiting.symm.trans found
  | @dequeue pass index _ _ fetching =>
      refine attended.setWork pass index _ fun topic messages handled found => ?_
      cases fetching.symm.trans found
  | take found _ => exact keeps (attended.take found _ _)
  | begin _ middleware _ => cases plain.symm.trans middleware
  | @abandon pass index _ _ _ found =>
      refine attended.setWork pass index _ fun topic messages numbers present id member _ => ?_
      cases found.symm.trans present
      rw [givesUp, found]
      exact .inl member
  | @complete pass index _ _ found settled =>
      refine attended.setWork pass index _
        fun topic messages numbers present id member working => ?_
      cases found.symm.trans present
      have unsettled := settled.resolve_left (by simp [plain])
      exact absurd working (not_working_of_unsettled unsettled member)
  | close found finished => exact keeps (attended.close found finished)
  | answer found answers => exact keeps (attended.moveOn found answers)

/-- Without a pass and without a timer, nothing that is in time begins a handling. -/
theorem idle_step (plain : setup.hasMiddleware = false) (passes : before.passes = [])
    (timer : before.timer = false) {event : Event} (inTime : event.InTime)
    (stepped : step setup before event = some after) :
    after.passes = [] ∧ after.timer = false ∧
      after.handlings.length = before.handlings.length := by
  have none : ∀ pass index, before.subscription pass index = none := by
    simp [State.subscription, passes]
  cases event with
  | start subscriptions => exact inTime.elim
  | forceTerminate => exact inTime.elim
  | stop | pause | resume =>
      obtain rfl := Option.some.inj stepped
      exact ⟨passes, timer, rfl⟩
  | tick subscriptions => simp [step, timer] at stepped
  | fetch pass index | close pass => simp [step, passes] at stepped
  | dequeue pass index messages => simp [step, none] at stepped
  | take pass index position => simp [step, none] at stepped
  | begin id topic payload =>
      simp only [step] at stepped
      split at stepped
      · simp [plain] at stepped
      · contradiction
  | abandon pass index | complete pass index => simp [step, none] at stepped
  | answer id fulfilled =>
      simp only [step] at stepped
      split at stepped
      · obtain ⟨next, -, rfl⟩ := Option.map_eq_some_iff.mp stepped
        exact ⟨passes, timer, List.length_set⟩
      · contradiction

end Steps

/-- After one call of `process` without middleware, when the runner has terminated its manager in
time, every handling that still goes on is of a batch that has been given up, and no other handling
will begin. -/
theorem terminated_idle {η : Type} {setup : Setup η} (plain : setup.hasMiddleware = false)
    {subscriptions : List String} {events : List Event} {final : State}
    (inTime : ∀ event ∈ events, event.InTime)
    (execution : (system setup).run (.start subscriptions :: events) .initial = some final)
    (terminated : final.manager = .terminated) :
    (∀ id, final.Working id →
      id ∈ (system setup).gathered givesUp (.start subscriptions :: events) .initial) ∧
    ∀ later last, (∀ event ∈ later, event.InTime) → (system setup).run later final = some last →
      last.handlings.length = final.handlings.length := by
  obtain ⟨first, stepped, rest⟩ := Option.bind_eq_some_iff.mp execution
  have started : Attended [] first := by
    simp only [system, step, Option.ite_none_right_eq_some, Option.some.injEq] at stepped
    obtain ⟨-, rfl⟩ := stepped
    refine .process rfl rfl (fun id working => ?_) subscriptions
    obtain ⟨stage, placed, -⟩ := working
    simp [State.stageOf, State.initial] at placed
  have preserved : ∀ earlier before event after, Attended earlier before → event.InTime →
      (system setup).step before event = some after →
        Attended (earlier ++ givesUp before event) after :=
    fun _ _ _ _ attended allowed stepped => attended_step plain attended allowed stepped
  have kept := System.invariant_gathered Attended preserved started inTime rest
  obtain ⟨passes, timer⟩ := kept.ended terminated
  constructor
  · intro id working
    have given := (kept.attended id working).resolve_right fun attends => by
      obtain ⟨pass, index, topic, messages, handled, found, -⟩ := attends
      simp [State.subscription, passes] at found
    simpa only [System.gathered, stepped, givesUp, List.nil_append] using given
  · intro later last allowed continued
    have idles : ∀ before event after, before.passes = [] ∧ before.timer = false ∧
        before.handlings.length = final.handlings.length → event.InTime →
          (system setup).step before event = some after → after.passes = [] ∧
            after.timer = false ∧ after.handlings.length = final.handlings.length := by
      rintro before event after ⟨idle, quiet, same⟩ allowed stepped
      obtain ⟨idle, quiet, kept⟩ := idle_step plain idle quiet allowed stepped
      exact ⟨idle, quiet, kept.trans same⟩
    exact (System.invariant_run idles ⟨passes, timer, rfl⟩
      ((system setup).along_of_forall allowed final) continued).2.2

/-- An instance that handles two messages at once. -/
def paired : Setup Unit := { orders with concurrency := 2 }

/-- A batch with a message that does not parse, of which the other one is being handled when the
manager is told to stop. -/
def spoiled : List Event :=
  [.fetch 0 0, .dequeue 0 0 (some [⟨some (.obj []), some "1"⟩, ⟨none, some "2"⟩]), .take 0 0 0,
    .take 0 0 0, .stop, .abandon 0 0, .close 0]

/-- The runner terminates while the first message is being handled, whose batch it has given up. -/
theorem spoiled_terminated :
    ∃ final, (system paired).run (.start ["orders"] :: spoiled) .initial = some final ∧
      final.manager = .terminated ∧ final.Working 0 ∧ ∀ id, final.Working id → id = 0 := by
  refine ⟨_, rfl, rfl, ⟨.acquiring, rfl, by simp, by simp⟩, fun id working => ?_⟩
  have inTime : ∀ event ∈ spoiled, event.InTime := by simp [spoiled, Event.InTime]
  have execution : (system paired).run (.start ["orders"] :: spoiled) .initial = some _ := rfl
  have given : id ∈ [0, 1] := (terminated_idle rfl inTime execution rfl).1 id working
  rcases List.mem_pair.mp given with first | rfl
  · exact first
  · obtain ⟨stage, placed, -, unrejected⟩ := working
    exact absurd (Option.some.inj placed).symm unrejected

end Polling

end Steveo
