import Steveo.Library.Mapping

/-!
# Bringing a mapping to its end

Answering the calls of an item in flight settles it, and settling one item after another leads to
a state in which nothing more can happen.  After a rejection no item is started.
-/

namespace Steveo

variable {κ : Type} {ω : κ → Type} {α : Type}

namespace Item

/-- Whether an item has been started and has settled. -/
def done (item : Item ω α) : Bool := item.started && item.settled

/-- An item that has been fulfilled is not in flight. -/
theorem inFlight_eq_false {item : Item ω α} (settles : item.started = true → item.settled = true)
    (kept : item.rejected = false) : item.inFlight = false := by
  obtain ⟨origin, started, log, program, trace, idle⟩ := item
  cases started with
  | false => rfl
  | true =>
      cases program with
      | await call resume => cases settles rfl
      | settled outcome =>
          cases outcome with
          | error message => cases kept
          | ok value => rfl

end Item

namespace Mapping

variable {mapping final : Mapping ω α} {index : Nat} {item : Item ω α}

/-- Nothing more can happen. -/
def Finished (mapping : Mapping ω α) : Prop :=
  ∀ event, (system ω α).step mapping event = none

/-- The mapping with another item at an index. -/
def put (mapping : Mapping ω α) (index : Nat) (item : Item ω α) : Mapping ω α :=
  { mapping with items := mapping.items.set index item }

theorem put_put (mapping : Mapping ω α) (index : Nat) (first second : Item ω α) :
    (mapping.put index first).put index second = mapping.put index second := by
  simp only [put, List.set_set]

theorem put_self (found : mapping.items[index]? = some item) :
    mapping.put index item = mapping := by
  obtain ⟨bound, rfl⟩ := List.getElem?_eq_some_iff.mp found
  rw [put, List.set_getElem_self]

theorem getElem?_put (found : mapping.items[index]? = some item) (next : Item ω α) :
    (mapping.put index next).items[index]? = some next := by
  obtain ⟨bound, -⟩ := List.getElem?_eq_some_iff.mp found
  exact List.getElem?_set_self bound

theorem getElem?_put_ne {other : Nat} (apart : index ≠ other) (next : Item ω α) :
    (mapping.put index next).items[other]? = mapping.items[other]? :=
  List.getElem?_set_ne apart

/-- An item in flight settles when its calls are answered. -/
theorem exists_settle (environment : ∀ call, Except String (ω call))
    (found : mapping.items[index]? = some item) (started : item.started = true) :
    ∃ count next, (system ω α).run (List.replicate count (.reply index environment)) mapping =
      some (mapping.put index next) ∧ next.done = true := by
  obtain ⟨origin, flag, log, program, trace, idle⟩ := item
  obtain rfl : flag = true := started
  induction program generalizing mapping log with
  | settled outcome => exact ⟨0, _, by rw [put_self found]; rfl, rfl⟩
  | await call resume induction =>
      let next : Item ω α := ⟨origin, true, log ++ [⟨call, environment call⟩],
        resume (environment call), trace.answered (environment call),
        fun unstarted => Bool.noConfusion unstarted⟩
      have stepped : (system ω α).step mapping (.reply index environment) =
          some (mapping.put index next) := by
        show (mapping.items[index]?.bind _) = _
        rw [found]
        rfl
      obtain ⟨count, last, run, done⟩ :=
        induction (environment call) _ _ _ (getElem?_put found next)
      refine ⟨count + 1, last, ?_, done⟩
      rw [List.replicate_succ, System.run_cons, stepped, Option.bind_some, run, put_put]

theorem replies_admitted {admits : ∀ call, Except String (ω call) → Prop}
    {environment : ∀ call, Except String (ω call)}
    (admitted : ∀ call, admits call (environment call)) (count index : Nat) :
    ∀ event ∈ List.replicate count (.reply index environment), Event.Admitted admits event := by
  intro event member
  obtain rfl := List.eq_of_mem_replicate member
  exact admitted

/-- While something can happen, an item that is not done can be brought to be done. -/
theorem exists_progress {admits : ∀ call, Except String (ω call) → Prop}
    {environment : ∀ call, Except String (ω call)}
    (admitted : ∀ call, admits call (environment call)) (unfinished : ¬ mapping.Finished) :
    ∃ events index item next, (∀ event ∈ events, Event.Admitted admits event) ∧
      mapping.items[index]? = some item ∧ item.done = false ∧ next.done = true ∧
        (system ω α).run events mapping = some (mapping.put index next) := by
  simp only [Finished, not_forall] at unfinished
  obtain ⟨event, possible⟩ := unfinished
  obtain ⟨after, stepped⟩ := Option.ne_none_iff_exists'.mp possible
  cases event with
  | start index =>
      obtain ⟨item, found, unstarted, -, -, rfl⟩ := step_start stepped
      obtain ⟨count, next, run, done⟩ := exists_settle environment
        (getElem?_put found item.start) rfl
      refine ⟨.start index :: List.replicate count (.reply index environment), index, item, next,
        List.forall_mem_cons.mpr ⟨trivial, replies_admitted admitted count index⟩, found, ?_, done,
        ?_⟩
      · rw [Item.done, unstarted, Bool.false_and]
      · rw [System.run_cons, stepped, Option.bind_some, ← put_put mapping index item.start]
        exact run
  | reply index answers =>
      obtain ⟨item, next, found, replied, rfl⟩ := step_reply stepped
      obtain ⟨started, -, -, call, resume, pending, -⟩ := Item.reply_spec replied
      obtain ⟨count, last, run, done⟩ := exists_settle environment found started
      refine ⟨_, index, item, last, replies_admitted admitted count index, found, ?_, done, run⟩
      rw [Item.done, Item.settled, pending, Bool.and_false]

/-- From every state some answered calls lead to a state in which nothing more can happen. -/
theorem exists_finish {admits : ∀ call, Except String (ω call) → Prop}
    {environment : ∀ call, Except String (ω call)}
    (admitted : ∀ call, admits call (environment call)) (mapping : Mapping ω α) :
    ∃ events final, (∀ event ∈ events, Event.Admitted admits event) ∧
      (system ω α).run events mapping = some final ∧ final.Finished := by
  -- The number of items that are not done decreases.
  induction remaining : mapping.items.countP (fun item => !item.done) using
    Nat.strongRecOn generalizing mapping with
  | _ count induction =>
      by_cases finished : mapping.Finished
      · exact ⟨[], mapping, by simp, rfl, finished⟩
      · obtain ⟨events, index, item, next, allowed, found, pending, done, run⟩ :=
          exists_progress admitted finished
        have fewer : (mapping.put index next).items.countP (fun item => !item.done) < count := by
          obtain ⟨bound, rfl⟩ := List.getElem?_eq_some_iff.mp found
          have positive : 0 < mapping.items.countP (fun item => !item.done) :=
            List.countP_pos_iff.mpr ⟨_, List.getElem_mem bound, by rw [pending]; rfl⟩
          simp only [put, List.countP_set bound, pending, done, Bool.not_false, Bool.not_true,
            if_true, Bool.false_eq_true, if_false]
          omega
        obtain ⟨later, final, admits, rest, finished⟩ := induction _ fewer _ rfl
        refine ⟨events ++ later, final, ?_, ?_, finished⟩
        · exact fun event member => (List.mem_append.mp member).elim (allowed event) (admits event)
        · rw [System.run_append, run, Option.bind_some, rest]

/-! ## After a rejection -/

/-- An item has been rejected and another one has not been started. -/
def Frozen (index : Nat) (mapping : Mapping ω α) : Prop :=
  mapping.rejected = true ∧ ∃ item, mapping.items[index]? = some item ∧ item.started = false

/-- After a rejection, an item that has not been started is never started. -/
theorem frozen_step {before after : Mapping ω α} {event : Event ω}
    (frozen : before.Frozen index) (stepped : step before event = some after) :
    after.Frozen index := by
  obtain ⟨rejected, item, found, unstarted⟩ := frozen
  cases event with
  | start other =>
      obtain ⟨-, -, -, running, -⟩ := step_start stepped
      rw [rejected] at running
      cases running
  | reply other environment =>
      obtain ⟨changed, next, present, replied, rfl⟩ := step_reply stepped
      obtain ⟨started, -, -, call, resume, pending, -⟩ := Item.reply_spec replied
      constructor
      · obtain ⟨thrower, member, threw⟩ := List.any_eq_true.mp rejected
        obtain ⟨position, placed⟩ := List.mem_iff_getElem?.mp member
        have apart : other ≠ position := by
          rintro rfl
          obtain ⟨-, message, settled⟩ := Item.rejected_iff.mp threw
          rw [Option.some.inj (placed.symm.trans present), pending] at settled
          cases settled
        have kept := (List.getElem?_set_ne (a := next) apart).trans placed
        exact List.any_eq_true.mpr ⟨thrower, List.mem_of_getElem? kept, threw⟩
      · have apart : other ≠ index := by
          rintro rfl
          rw [Option.some.inj (found.symm.trans present), started] at unstarted
          cases unstarted
        exact ⟨item, (List.getElem?_set_ne apart).trans found, unstarted⟩

theorem frozen_run {events : List (Event ω)} (frozen : mapping.Frozen index)
    (execution : (system ω α).run events mapping = some final) : final.Frozen index := by
  have preserved : ∀ (before : Mapping ω α) event after, before.Frozen index →
      (system ω α).step before event = some after → after.Frozen index :=
    fun _ _ _ frozen stepped => frozen_step frozen stepped
  exact System.invariant_of_run preserved frozen execution

/-! ## Mappings in which nothing more can happen -/

/-- An item in flight has a call that can be answered. -/
theorem Finished.quiescent (finished : final.Finished) (answers : ∀ call, Except String (ω call)) :
    final.Quiescent := by
  intro item member started
  obtain ⟨index, found⟩ := List.mem_iff_getElem?.mp member
  obtain ⟨origin, flag, log, program, trace, idle⟩ := item
  obtain rfl : flag = true := started
  cases program with
  | settled outcome => rfl
  | await call resume =>
      have stuck : (final.items[index]?.bind _) = none := finished (.reply index answers)
      rw [found] at stuck
      cases stuck

/-- Nothing more can happen and nothing has been rejected: every item has been started. -/
theorem Finished.started (finished : final.Finished) (answers : ∀ call, Except String (ω call))
    (limited : final.limit ≠ 0) (fulfilled : final.rejected = false) :
    ∀ item ∈ final.items, item.started = true := by
  intro item member
  obtain ⟨index, found⟩ := List.mem_iff_getElem?.mp member
  by_contra unstarted
  have idle : final.inFlight = 0 := by
    refine List.countP_eq_zero.mpr fun other listed => Bool.eq_false_iff.mp ?_
    have kept := List.any_eq_false.mp fulfilled other listed
    exact Item.inFlight_eq_false (finished.quiescent answers other listed) (by simpa using kept)
  have stuck : (final.items[index]?.bind _) = none := finished (.start index)
  rw [found, Option.bind_some, if_pos ⟨eq_false_of_ne_true unstarted, fulfilled, by omega⟩] at stuck
  cases stuck

/-! ## A rejection that comes first -/

/-- There is room for another item once one of the first items has been fulfilled. -/
theorem inFlight_lt_limit
    (late : ∀ index item, mapping.limit ≤ index → mapping.items[index]? = some item →
      item.inFlight = false)
    (found : mapping.items[index]? = some item) (early : index < mapping.limit)
    (idle : item.inFlight = false) : mapping.inFlight < mapping.limit := by
  have none : (mapping.items.drop mapping.limit).countP Item.inFlight = 0 := by
    refine List.countP_eq_zero.mpr fun other member => Bool.eq_false_iff.mp ?_
    obtain ⟨position, placed⟩ := List.mem_iff_getElem?.mp member
    rw [List.getElem?_drop] at placed
    exact late _ other (Nat.le_add_right _ _) placed
  have first : (mapping.items.take mapping.limit).countP Item.inFlight <
      (mapping.items.take mapping.limit).length := by
    refine Nat.lt_of_le_of_ne List.countP_le_length fun all => ?_
    have busy := List.countP_eq_length.mp all item
      (List.mem_of_getElem? ((List.getElem?_take_of_lt early).trans found))
    rw [idle] at busy
    cases busy
  calc
    mapping.inFlight = (mapping.items.take mapping.limit).countP Item.inFlight +
        (mapping.items.drop mapping.limit).countP Item.inFlight := by
      rw [inFlight, ← List.countP_append, List.take_append_drop]
    _ < mapping.limit := by
      rw [none, Nat.add_zero]
      exact Nat.lt_of_lt_of_le first (List.length_take_le _ _)

section Rejection

variable {admits : ∀ call, Except String (ω call) → Prop}
  {environment : ∀ call, Except String (ω call)} {limit : Nat} {programs : List (Async ω α)}
  {rejecting waiting : Nat} {program : Async ω α}

/-- A rejection of one item, while another one has not been started, can be brought about. -/
theorem exists_frozen_of_started (admitted : ∀ call, admits call (environment call))
    {events : List (Event ω)} (allowed : ∀ event ∈ events, Event.Admitted admits event)
    (execution : (system ω α).run events (begin limit programs) = some mapping)
    (found : mapping.items[rejecting]? = some item) (started : item.started = true)
    (rejects : item.origin.Ends admits [] fun _ outcome => ∃ message, outcome = .error message)
    {other : Item ω α} (present : mapping.items[waiting]? = some other)
    (unstarted : other.started = false) :
    ∃ events final, (∀ event ∈ events, Event.Admitted admits event) ∧
      (system ω α).run events (begin limit programs) = some final ∧ final.Frozen waiting := by
  obtain ⟨count, next, run, done⟩ := exists_settle environment found started
  obtain ⟨begun, settled⟩ := Bool.and_eq_true_iff.mp done
  obtain ⟨outcome, ended⟩ := Item.settled_iff.mp settled
  have placed := getElem?_put found next
  have whole : (system ω α).run (events ++ List.replicate count (.reply rejecting environment))
      (begin limit programs) = some (mapping.put rejecting next) := by
    rw [System.run_append, execution, Option.bind_some, run]
  have allowedAll : ∀ event ∈ events ++ List.replicate count (.reply rejecting environment),
      Event.Admitted admits event := fun event member =>
    (List.mem_append.mp member).elim (allowed event)
      (replies_admitted admitted count rejecting event)
  have same : item.origin = next.origin :=
    Option.some.inj ((origin_at execution found).symm.trans (origin_at whole placed))
  rw [same] at rejects
  obtain ⟨message, rfl⟩ :=
    ends_of_settled allowedAll whole (List.mem_of_getElem? placed) ended rejects
  have apart : rejecting ≠ waiting := by
    rintro rfl
    rw [Option.some.inj (present.symm.trans found), started] at unstarted
    cases unstarted
  refine ⟨_, _, allowedAll, whole, ?_, other, (List.getElem?_set_ne apart).trans present, unstarted⟩
  exact List.any_eq_true.mpr
    ⟨next, List.mem_of_getElem? placed, Item.rejected_iff.mpr ⟨begun, message, ended⟩⟩

theorem getElem?_begin (limit : Nat) (programs : List (Async ω α)) (index : Nat) :
    (begin limit programs).items[index]? =
      programs[index]?.map (Item.fresh (limit = 0 || index < limit)) := by
  rw [begin, List.getElem?_mapIdx]

theorem getElem?_begin_of_lt (found : programs[waiting]? = some program) (early : waiting < limit) :
    (begin limit programs).items[waiting]? = some (Item.fresh true program) := by
  rw [getElem?_begin, found, Option.map_some, decide_eq_true early, Bool.or_true]

theorem getElem?_begin_of_le (limited : limit ≠ 0) (found : programs[waiting]? = some program)
    (late : limit ≤ waiting) :
    (begin limit programs).items[waiting]? = some (Item.fresh false program) := by
  rw [getElem?_begin, found, Option.map_some, decide_eq_false limited,
    decide_eq_false (Nat.not_lt_of_le late), Bool.or_false]

/-- Once the first item has settled, an item that the limit holds back can be started, unless some
item has been rejected; the others that the limit holds back still wait. -/
theorem exists_started (admitted : ∀ call, admits call (environment call)) (limited : limit ≠ 0)
    (found : programs[index]? = some program) (late : limit ≤ index) :
    ∃ events mapping, (∀ event ∈ events, Event.Admitted admits event) ∧
      (system ω α).run events (begin limit programs) = some mapping ∧
        (mapping.rejected = true ∨
          mapping.items[index]? = some (Item.fresh false program).start) ∧
        ∀ waiting held, limit ≤ waiting → index ≠ waiting → programs[waiting]? = some held →
          mapping.items[waiting]? = some (Item.fresh false held) := by
  obtain ⟨bound, -⟩ := List.getElem?_eq_some_iff.mp found
  have positive : 0 < limit := Nat.pos_of_ne_zero limited
  have nonempty : 0 < programs.length := by omega
  have apart : ∀ {waiting : Nat}, limit ≤ waiting → 0 ≠ waiting := fun late => by omega
  have first := getElem?_begin_of_lt (List.getElem?_eq_getElem nonempty) positive
  obtain ⟨count, next, run, done⟩ := exists_settle environment first rfl
  have placed := getElem?_put first next
  have kept : ∀ {waiting : Nat} {held}, programs[waiting]? = some held → limit ≤ waiting →
      ((begin limit programs).put 0 next).items[waiting]? = some (Item.fresh false held) :=
    fun present late =>
      (getElem?_put_ne (apart late) next).trans (getElem?_begin_of_le limited present late)
  cases rejected : ((begin limit programs).put 0 next).rejected with
  | true =>
      exact ⟨_, _, replies_admitted admitted count 0, run, .inl rejected,
        fun waiting held late _ present => kept present late⟩
  | false =>
      have room : ((begin limit programs).put 0 next).inFlight < limit := by
        refine inFlight_lt_limit (fun waiting item late found => ?_) placed positive ?_
        · have before := (getElem?_put_ne (apart late) next).symm.trans found
          obtain ⟨held, present, -⟩ :=
            Option.map_eq_some_iff.mp ((getElem?_begin limit programs waiting).symm.trans before)
          rw [← Option.some.inj ((kept present late).symm.trans found)]
          rfl
        · have spared := List.any_eq_false.mp rejected next (List.mem_of_getElem? placed)
          exact Item.inFlight_eq_false (fun _ => (Bool.and_eq_true_iff.mp done).2)
            (by simpa using spared)
      have started : (system ω α).step ((begin limit programs).put 0 next) (.start index) = some
          (((begin limit programs).put 0 next).put index (Item.fresh false program).start) := by
        show (Option.bind _ _) = _
        rw [kept found late, Option.bind_some, if_pos ⟨rfl, rejected, room⟩]
        rfl
      refine ⟨List.replicate count (.reply 0 environment) ++ [.start index], _, ?_, ?_,
        .inr (getElem?_put (kept found late) _), fun waiting held late apart present =>
          (getElem?_put_ne apart _).trans (kept present late)⟩
      · intro event member
        rcases List.mem_append.mp member with reply | last
        · exact replies_admitted admitted count 0 event reply
        · rw [List.mem_singleton.mp last]
          trivial
      · rw [System.run_append, run, Option.bind_some, System.run_cons, started]
        rfl

/-- If the program of some item always rejects, that can happen before an item that the limit holds
back has been started. -/
theorem exists_frozen (admitted : ∀ call, admits call (environment call)) (limited : limit ≠ 0)
    (found : programs[rejecting]? = some program)
    (rejects : program.Ends admits [] fun _ outcome => ∃ message, outcome = .error message)
    {held : Async ω α} (present : programs[waiting]? = some held) (late : limit ≤ waiting)
    (apart : rejecting ≠ waiting) :
    ∃ events final, (∀ event ∈ events, Event.Admitted admits event) ∧
      (system ω α).run events (begin limit programs) = some final ∧ final.Frozen waiting := by
  rcases Nat.lt_or_ge rejecting limit with early | later
  · exact exists_frozen_of_started admitted (List.forall_mem_nil _) (System.run_nil _ _)
      (getElem?_begin_of_lt found early) rfl rejects (getElem?_begin_of_le limited present late) rfl
  · obtain ⟨events, mapping, allowed, execution, state, others⟩ :=
      exists_started admitted limited found later
    have unstarted := others waiting held late apart present
    rcases state with rejected | started
    · exact ⟨events, mapping, allowed, execution, rejected, _, unstarted, rfl⟩
    · exact exists_frozen_of_started admitted allowed execution started rfl rejects unstarted rfl

/-- If the program of some item always rejects, a mapping may come to its end without ever starting
an item that the limit holds back. -/
theorem exists_held_back (admitted : ∀ call, admits call (environment call)) (limited : limit ≠ 0)
    (found : programs[rejecting]? = some program)
    (rejects : program.Ends admits [] fun _ outcome => ∃ message, outcome = .error message)
    {held : Async ω α} (present : programs[waiting]? = some held) (late : limit ≤ waiting)
    (apart : rejecting ≠ waiting) :
    ∃ events final, (∀ event ∈ events, Event.Admitted admits event) ∧
      (system ω α).run events (begin limit programs) = some final ∧ final.Finished ∧
        ∃ item, final.items[waiting]? = some item ∧ item.started = false := by
  obtain ⟨earlier, middle, allowed, run, frozen⟩ :=
    exists_frozen admitted limited found rejects present late apart
  obtain ⟨events, final, admits, rest, finished⟩ := exists_finish admitted middle
  refine ⟨earlier ++ events, final, ?_, ?_, finished, (frozen_run frozen rest).2⟩
  · exact fun event member => (List.mem_append.mp member).elim (allowed event) (admits event)
  · rw [System.run_append, run, Option.bind_some, rest]

end Rejection

end Mapping

end Steveo
