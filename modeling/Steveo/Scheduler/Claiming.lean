import Steveo.Library.Dictionary
import Steveo.Library.Simulation
import Steveo.Scheduler.Overlap

/-!
# The enqueue query among other statements

The query that enqueues due jobs finds them in the table as it was when the query started.  For
each it tries, without waiting, an advisory lock on the first half of its identifier; then it locks
the row, which makes it look at the latest version, and at its end it changes all rows that it has
locked.  This file runs such queries of any number of processes next to each other and next to
other statements, and shows that they might as well be carried out at once.
-/

namespace Steveo.Scheduler

/-- The value of a hexadecimal digit. -/
def hexValue (digit : Char) : Nat :=
  if digit.isDigit then digit.toNat - '0'.toNat else digit.toLower.toNat - 'a'.toNat + 10

/-- The key of the advisory lock of a row: the first 64 bits of its identifier, read as a signed
number. -/
def advisoryKey (id : String) : Int :=
  let digits := (id.toList.filter fun char => char ≠ '-').take 16
  (BitVec.ofNat 64 (digits.foldl (fun key digit => key * 16 + hexValue digit) 0)).toInt

namespace Claiming

/-- An enqueue query that is under way. -/
structure Query where
  /-- The time at which the query started, which is its `CURRENT_TIMESTAMP`. -/
  since : Int
  /-- The table as it was when the query started. -/
  snapshot : JobTable
  /-- The advisory locks that it holds. -/
  keys : List Int
  /-- The rows that it has locked, in the order in which it found them. -/
  locked : List String

/-- The rows that a query has enqueued. -/
structure Claim where
  process : Nat
  since : Int
  ids : List String

/-- What is committed: the table at some time and who has claimed rows so far. -/
structure Committed where
  now : Int
  table : JobTable
  claims : List Claim

/-- What is committed, and the query of each process. -/
structure State extends Committed where
  queries : Dictionary Nat Query

/-- What can happen next. -/
inductive Event
  | elapse (duration : Nat)
  | begin (process : Nat)
  | tryAdvisoryLock (process : Nat) (id : String)
  | lockRow (process : Nat) (id : String)
  | update (process : Nat)
  /-- The process crashes, or the database ends its query. -/
  | abort (process : Nat)
  /-- A statement of a task, of the timestamp helper or of a maintenance pass. -/
  | carryOut (statement : Fleet.Statement)
  | insert (row : JobRow)

namespace State

variable (state : State)

/-- Whether another process holds an advisory lock. -/
def keyHeld (process : Nat) (key : Int) : Bool :=
  state.queries.entries.any fun entry => entry.1 ≠ process && decide (key ∈ entry.2.keys)

/-- Whether another process has locked a row. -/
def rowLocked (process : Nat) (id : String) : Bool :=
  state.queries.entries.any fun entry => entry.1 ≠ process && decide (id ∈ entry.2.locked)

/-- Whether a statement has to wait for a query. -/
def waits (statement : Fleet.Statement) : Bool :=
  state.queries.entries.any fun entry => entry.2.locked.any fun id =>
    (state.table.find id).any statement.selects

/-- A process goes on with its query. -/
def proceed (process : Nat) (query : Query) : State :=
  { state with queries := state.queries.set process query }

end State

/-- Enqueueing some rows. -/
def enqueueing (since : Int) : RowUpdate := { queued := some true, lastRunAt := some since }

/-- Enqueue some rows at once. -/
def Committed.claim (committed : Committed) (claim : Claim) : Committed :=
  { committed with
    table := committed.table.write (fun row => row.id ∈ claim.ids) (enqueueing claim.since)
    claims := committed.claims ++ [claim] }

variable (fleet : Fleet)

/-- The next state; an event that has to wait for a lock cannot happen yet. -/
def step (state : State) : Event → Option State
  | .elapse duration => some { state with now := state.now + duration }
  | .begin process =>
      match state.queries.get process with
      | some _ => none
      | none => some (state.proceed process ⟨state.now, state.table, [], []⟩)
  | .tryAdvisoryLock process id =>
      (state.queries.get process).bind fun query =>
        if (query.snapshot.find id).any (fleet.enqueueable query.since) then
          if state.keyHeld process (advisoryKey id) then some state
          else some (state.proceed process { query with keys := advisoryKey id :: query.keys })
        else none
  | .lockRow process id =>
      (state.queries.get process).bind fun query =>
        if advisoryKey id ∈ query.keys ∧ id ∉ query.locked ∧
            query.locked.length < fleet.settings.enqueueLimit ∧ state.rowLocked process id = false ∧
            (state.table.find id).any (fleet.enqueueable query.since) = true then
          some (state.proceed process { query with locked := query.locked ++ [id] })
        else none
  | .update process =>
      (state.queries.get process).map fun query =>
        { toCommitted := state.toCommitted.claim ⟨process, query.since, query.locked⟩
          queries := state.queries.erase process }
  | .abort process => some { state with queries := state.queries.erase process }
  | .carryOut statement =>
      if state.waits statement then none
      else some { state with table := statement.apply state.table }
  | .insert row =>
      if (state.table.find row.id).isNone then
        some { state with table := state.table.insert row }
      else none

/-- The enqueue queries of a fleet among other statements. -/
def system : System State Event := ⟨step fleet⟩

/-- A table on which no query is under way. -/
def State.initial (now : Int) (table : JobTable) : State := ⟨⟨now, table, []⟩, .empty⟩

/-! ## One query at a time -/

/-- Statements that are carried out at once, one after the other.  The other statements are those
of some events. -/
inductive Atomic (permitted : Event → Prop) (before : Committed) : Committed → Prop
  | elapsed (duration : Nat) : Atomic permitted before { before with now := before.now + duration }
  /-- A query enqueues some of the rows that are due, as many as it may. -/
  | claimed (claim : Claim) (past : claim.since ≤ before.now) (distinct : claim.ids.Nodup)
      (limited : claim.ids.length ≤ fleet.settings.enqueueLimit)
      (due : ∀ id ∈ claim.ids,
        (before.table.find id).any (fleet.enqueueable claim.since) = true) :
      Atomic permitted before (before.claim claim)
  | carriedOut (statement : Fleet.Statement) (allowed : permitted (.carryOut statement)) :
      Atomic permitted before { before with table := statement.apply before.table }
  | inserted (row : JobRow) (allowed : permitted (.insert row))
      (fresh : before.table.find row.id = none) :
      Atomic permitted before { before with table := before.table.insert row }

/-- What a query has locked it can enqueue, and nobody else has locked it. -/
structure Query.Sound (committed : Committed) (query : Query) : Prop where
  past : query.since ≤ committed.now
  distinct : query.locked.Nodup
  limited : query.locked.length ≤ fleet.settings.enqueueLimit
  keyed : ∀ id ∈ query.locked, advisoryKey id ∈ query.keys
  due : ∀ id ∈ query.locked,
    (committed.table.find id).any (fleet.enqueueable query.since) = true

/-- All queries are sound, and no two hold the same advisory lock. -/
structure Sound (state : State) : Prop where
  queries : ∀ process query, state.queries.get process = some query →
    query.Sound fleet state.toCommitted
  apart : ∀ process other query rival, process ≠ other →
    state.queries.get process = some query → state.queries.get other = some rival →
      ∀ key ∈ query.keys, key ∉ rival.keys

variable {fleet} {state : State}

/-- An advisory lock that nobody else holds. -/
theorem State.keyHeld_eq_false {process : Nat} {key : Int} :
    state.keyHeld process key = false ↔
      ∀ other rival, process ≠ other → state.queries.get other = some rival →
        key ∉ rival.keys := by
  rw [keyHeld, List.any_eq_false]
  constructor
  · intro free other rival apart found held
    refine free (other, rival) ((state.queries.mem_entries_iff_get other rival).mpr found) ?_
    simp [apart.symm, held]
  · rintro free ⟨other, rival⟩ member taken
    obtain ⟨apart, held⟩ : other ≠ process ∧ key ∈ rival.keys := by simpa using taken
    exact free other rival apart.symm ((state.queries.mem_entries_iff_get other rival).mp member)
      held

/-- A row that nobody else has locked. -/
theorem State.rowLocked_eq_false {process : Nat} {id : String} :
    state.rowLocked process id = false ↔
      ∀ other rival, process ≠ other → state.queries.get other = some rival →
        id ∉ rival.locked := by
  rw [rowLocked, List.any_eq_false]
  constructor
  · intro free other rival apart found held
    refine free (other, rival) ((state.queries.mem_entries_iff_get other rival).mpr found) ?_
    simp [apart.symm, held]
  · rintro free ⟨other, rival⟩ member taken
    obtain ⟨apart, held⟩ : other ≠ process ∧ id ∈ rival.locked := by simpa using taken
    exact free other rival apart.symm ((state.queries.mem_entries_iff_get other rival).mp member)
      held

/-- A statement that does not wait selects no row that is locked. -/
theorem State.not_selects_of_waits {statement : Fleet.Statement}
    (free : state.waits statement = false) {process : Nat} {query : Query} {id : String}
    {row : JobRow} (found : state.queries.get process = some query) (locked : id ∈ query.locked)
    (present : state.table.find id = some row) : statement.selects row = false := by
  rw [waits, List.any_eq_false] at free
  have unlocked := free (process, query)
    ((state.queries.mem_entries_iff_get process query).mpr found)
  rw [Bool.not_eq_true, List.any_eq_false] at unlocked
  have unselected := unlocked id locked
  rw [present] at unselected
  simpa using unselected

/-- A sound query stays sound while the rows that it has locked stay as they are. -/
theorem Query.Sound.later {before after : Committed} {query : Query}
    (sound : query.Sound fleet before) (later : before.now ≤ after.now)
    (same : ∀ id ∈ query.locked, after.table.find id = before.table.find id) :
    query.Sound fleet after where
  past := le_trans sound.past later
  distinct := sound.distinct
  limited := sound.limited
  keyed := sound.keyed
  due id locked := by
    rw [same id locked]
    exact sound.due id locked

/-- Two queries have locked different rows. -/
theorem Sound.unlocked (sound : Sound fleet state) {process other : Nat} {query rival : Query}
    (different : process ≠ other) (own : state.queries.get process = some query)
    (others : state.queries.get other = some rival) {id : String}
    (keyed : advisoryKey id ∈ query.keys) : id ∉ rival.locked := fun locked =>
  sound.apart process other query rival different own others (advisoryKey id) keyed
    ((sound.queries other rival others).keyed id locked)

/-- The queries stay sound while nothing changes but the committed part. -/
theorem Sound.later (sound : Sound fleet state) {committed : Committed}
    (later : state.now ≤ committed.now)
    (same : ∀ process query id, state.queries.get process = some query → id ∈ query.locked →
      committed.table.find id = state.table.find id) :
    Sound fleet ⟨committed, state.queries⟩ where
  queries process query found :=
    (sound.queries process query found).later later fun id locked =>
      same process query id found locked
  apart := sound.apart

/-- The queries stay sound when one of them ends. -/
theorem Sound.erase (sound : Sound fleet state) (process : Nat) :
    Sound fleet { state with queries := state.queries.erase process } where
  queries other query found := by
    rw [Dictionary.get_erase] at found
    split at found
    · cases found
    · exact sound.queries other query found
  apart other third query rival different found others := by
    rw [Dictionary.get_erase] at found others
    split at found
    · cases found
    · split at others
      · cases others
      · exact sound.apart other third query rival different found others

/-- The queries stay sound when one of them goes on, if nobody else holds its advisory locks. -/
theorem Sound.proceed (sound : Sound fleet state) {process : Nat} {query : Query}
    (own : query.Sound fleet state.toCommitted)
    (free : ∀ other rival, process ≠ other → state.queries.get other = some rival →
      ∀ key ∈ query.keys, key ∉ rival.keys) :
    Sound fleet (state.proceed process query) where
  queries other rival found := by
    rw [State.proceed, Dictionary.get_set] at found
    split at found
    · obtain rfl := Option.some.inj found
      exact own
    · exact sound.queries other rival found
  apart other third first second different found others key held := by
    rw [State.proceed, Dictionary.get_set] at found others
    split at found
    · rename_i same
      obtain rfl := Option.some.inj found
      rw [if_neg (by omega)] at others
      exact free third second (by omega) others key held
    · split at others
      · rename_i same
        obtain rfl := Option.some.inj others
        exact fun taken => free other first (by omega) found key taken held
      · exact sound.apart other third first second different found others key held

/-- No query is under way at first. -/
theorem sound_initial (now : Int) (table : JobTable) : Sound fleet (.initial now table) where
  queries process query found := by cases found
  apart process other query rival different found := by cases found

section Steps

variable {after : State} {process : Nat} {id : String}

theorem sound_begin (sound : Sound fleet state)
    (moved : step fleet state (.begin process) = some after) :
    Sound fleet after ∧ after.toCommitted = state.toCommitted := by
  simp only [step] at moved
  split at moved
  · cases moved
  · obtain rfl := Option.some.inj moved
    refine ⟨sound.proceed ?_ ?_, rfl⟩
    · exact
        { past := le_rfl
          distinct := List.nodup_nil
          limited := Nat.zero_le _
          keyed := by simp
          due := by simp }
    · intro other rival different found key held
      cases held

theorem sound_tryAdvisoryLock (sound : Sound fleet state)
    (moved : step fleet state (.tryAdvisoryLock process id) = some after) :
    Sound fleet after ∧ after.toCommitted = state.toCommitted := by
  obtain ⟨query, found, moved⟩ := Option.bind_eq_some_iff.mp moved
  have own := sound.queries process query found
  split at moved
  · split at moved
    · obtain rfl := Option.some.inj moved
      exact ⟨sound, rfl⟩
    · rename_i taken
      obtain rfl := Option.some.inj moved
      have free := State.keyHeld_eq_false.mp (Bool.eq_false_iff.mpr taken)
      refine ⟨sound.proceed ?_ ?_, rfl⟩
      · exact
          { past := own.past
            distinct := own.distinct
            limited := own.limited
            keyed := fun locked member => List.mem_cons_of_mem _ (own.keyed locked member)
            due := own.due }
      · intro other rival different others key held
        rcases List.mem_cons.mp held with rfl | held
        · exact free other rival different others
        · exact sound.apart process other query rival different found others key held
  · cases moved

theorem sound_lockRow (sound : Sound fleet state)
    (moved : step fleet state (.lockRow process id) = some after) :
    Sound fleet after ∧ after.toCommitted = state.toCommitted := by
  obtain ⟨query, found, moved⟩ := Option.bind_eq_some_iff.mp moved
  have own := sound.queries process query found
  split at moved
  · rename_i allowed
    obtain ⟨keyed, fresh, room, -, due⟩ := allowed
    obtain rfl := Option.some.inj moved
    refine ⟨sound.proceed ?_ ?_, rfl⟩
    · exact
        { past := own.past
          distinct := by
            refine List.Nodup.append own.distinct (List.nodup_singleton id) ?_
            simpa using fresh
          limited := by
            rw [List.length_append, List.length_singleton]
            exact room
          keyed := fun locked member => by
            rcases List.mem_append.mp member with member | member
            · exact own.keyed locked member
            · obtain rfl := List.mem_singleton.mp member
              exact keyed
          due := fun locked member => by
            rcases List.mem_append.mp member with member | member
            · exact own.due locked member
            · obtain rfl := List.mem_singleton.mp member
              exact due }
    · intro other rival different others
      exact sound.apart process other query rival different found others
  · cases moved

/-- A query that ends has claimed what it has locked; no other query has locked any of it. -/
theorem sound_update {permitted : Event → Prop} (sound : Sound fleet state)
    (moved : step fleet state (.update process) = some after) :
    Sound fleet after ∧ Atomic fleet permitted state.toCommitted after.toCommitted := by
  obtain ⟨query, found, rfl⟩ := Option.map_eq_some_iff.mp moved
  have own := sound.queries process query found
  refine ⟨?_, .claimed ⟨process, query.since, query.locked⟩ own.past own.distinct own.limited
    own.due⟩
  refine Sound.later (sound.erase process) le_rfl fun other rival id others locked => ?_
  have others : (if other = process then none else state.queries.get other) = some rival := by
    rwa [← Dictionary.get_erase]
  split at others
  · cases others
  · rename_i different
    have apart : id ∉ query.locked :=
      sound.unlocked different others found ((sound.queries other rival others).keyed id locked)
    refine (JobTable.find_write _ _ id).trans ?_
    cases present : state.table.find id with
    | none => rfl
    | some row =>
        have unselected : decide (row.id ∈ query.locked) = false := by
          simpa [(JobTable.mem_of_find present).2] using apart
        rw [Option.map_some, if_neg (by simp [unselected])]

theorem sound_carryOut {statement : Fleet.Statement} (sound : Sound fleet state)
    (moved : step fleet state (.carryOut statement) = some after) :
    Sound fleet after ∧
      after.toCommitted = { state.toCommitted with table := statement.apply state.table } := by
  simp only [step] at moved
  split at moved
  · cases moved
  · rename_i free
    obtain rfl := Option.some.inj moved
    refine ⟨sound.later le_rfl fun process query id found locked => ?_, rfl⟩
    refine (Fleet.Statement.find_apply statement state.table id).trans ?_
    cases present : state.table.find id with
    | none => rfl
    | some row =>
        exact Fleet.Statement.onRow_of_not_selects
          (State.not_selects_of_waits (Bool.eq_false_iff.mpr free) found locked present)

theorem sound_insert {row : JobRow} (sound : Sound fleet state)
    (moved : step fleet state (.insert row) = some after) :
    Sound fleet after ∧ state.table.find row.id = none ∧
      after.toCommitted = { state.toCommitted with table := state.table.insert row } := by
  simp only [step] at moved
  split at moved
  · rename_i fresh
    have fresh := Option.isNone_iff_eq_none.mp fresh
    obtain rfl := Option.some.inj moved
    refine ⟨sound.later le_rfl fun process query id found locked => ?_, fresh, rfl⟩
    refine (JobTable.find_insert row fresh id).trans (if_neg ?_)
    rintro rfl
    have due := (sound.queries process query found).due row.id locked
    rw [fresh] at due
    cases due
  · cases moved

end Steps

/-- The queries simulate statements that are carried out at once. -/
theorem simulates (permitted : Event → Prop) :
    (system fleet).Simulates (Sound fleet) (fun _ event => permitted event) State.toCommitted
      (Atomic fleet permitted) := by
  intro before event after sound allowed moved
  cases event with
  | elapse duration =>
      obtain rfl := Option.some.inj moved
      have later : before.now ≤ before.now + duration := by omega
      exact ⟨sound.later later fun _ _ _ _ _ => rfl, .inr (.elapsed duration)⟩
  | begin process =>
      obtain ⟨kept, same⟩ := sound_begin sound moved
      exact ⟨kept, .inl same⟩
  | tryAdvisoryLock process id =>
      obtain ⟨kept, same⟩ := sound_tryAdvisoryLock sound moved
      exact ⟨kept, .inl same⟩
  | lockRow process id =>
      obtain ⟨kept, same⟩ := sound_lockRow sound moved
      exact ⟨kept, .inl same⟩
  | update process =>
      obtain ⟨kept, claimed⟩ := sound_update sound moved
      exact ⟨kept, .inr claimed⟩
  | abort process =>
      obtain rfl := Option.some.inj moved
      exact ⟨sound.erase process, .inl rfl⟩
  | carryOut statement =>
      obtain ⟨kept, same⟩ := sound_carryOut sound moved
      rw [same]
      exact ⟨kept, .inr (.carriedOut statement allowed)⟩
  | insert row =>
      obtain ⟨kept, fresh, same⟩ := sound_insert sound moved
      rw [same]
      exact ⟨kept, .inr (.inserted row allowed fresh)⟩

theorem sound_run {events : List Event} {final : State} (sound : Sound fleet state)
    (execution : (system fleet).run events state = some final) : Sound fleet final :=
  have preserved : ∀ before event after, Sound fleet before →
      (system fleet).step before event = some after → Sound fleet after := fun before event after
    holds moved => (simulates (fun _ => True) before event after holds trivial moved).1
  System.invariant_of_run preserved sound execution

/-- Whatever the order of steps, what is committed has come about by statements that were carried
out at once, one after the other: queries that enqueued rows which were due, and the other
statements of the run. -/
theorem queries_atomic {events : List Event} {now : Int} {table : JobTable} {final : State}
    (execution : (system fleet).run events (.initial now table) = some final) :
    Relation.ReflTransGen (Atomic fleet (· ∈ events)) ⟨now, table, []⟩ final.toCommitted :=
  (simulates (· ∈ events)).run (sound_initial now table)
    ((system fleet).along_of_forall (fun _ member => member) _) execution

/-- A tick of a fleet, which enqueues at once what it has found, is one of these statements. -/
theorem enqueue_atomic {permitted : Event → Prop} {before after : Fleet.State} {process : Nat}
    {ids : List String} (claims : List Claim)
    (moved : Fleet.step fleet before (.enqueue process ids) = some after) :
    Atomic fleet permitted ⟨before.now, before.table, claims⟩
      ⟨after.now, after.table, claims ++ [⟨process, before.now, ids⟩]⟩ := by
  rw [Fleet.step, Option.ite_none_right_eq_some] at moved
  obtain ⟨⟨-, distinct, limited, enqueueable⟩, taken⟩ := moved
  obtain rfl := Option.some.inj taken
  exact .claimed ⟨process, before.now, ids⟩ le_rfl distinct limited
    (List.all_eq_true.mp enqueueable)

/-- A query that holds the advisory lock of a row never waits for another query, and what it has
locked stays due until it ends. -/
theorem never_waits {events : List Event} {now : Int} {table : JobTable} {reached : State}
    {process : Nat} {query : Query}
    (execution : (system fleet).run events (.initial now table) = some reached)
    (found : reached.queries.get process = some query) :
    (∀ id, advisoryKey id ∈ query.keys → reached.rowLocked process id = false) ∧
      ∀ id ∈ query.locked,
        (reached.table.find id).any (fleet.enqueueable query.since) = true := by
  have sound := sound_run (sound_initial now table) execution
  refine ⟨fun id keyed => ?_, (sound.queries process query found).due⟩
  refine State.rowLocked_eq_false.mpr fun other rival different others => ?_
  exact sound.unlocked different found others keyed

/-! ## Claims of one row -/

/-- How often a row has been claimed. -/
def Committed.claimsOf (committed : Committed) (id : String) : Nat :=
  committed.claims.countP fun claim => decide (id ∈ claim.ids)

/-- An event that does not put a row back; it may delete the row. -/
def Event.Keeps (id : String) : Event → Prop
  | .carryOut statement => ∀ row, row.id = id → row.queued = true →
      ∀ after ∈ statement.onRow row, after.queued = true
  | .insert row => row.id ≠ id
  | _ => True

/-- A row has been claimed as often as before, or once more and is queued if it still exists. -/
def ClaimedOnce (id : String) (base : Nat) (committed : Committed) : Prop :=
  committed.claimsOf id = base ∨
    committed.claimsOf id = base + 1 ∧ ∀ row ∈ committed.table.find id, row.queued = true

theorem enqueueable_queued {since : Int} {row : JobRow}
    (enqueueable : fleet.enqueueable since row = true) : row.queued = false := by
  simp only [Fleet.enqueueable, due, Bool.and_eq_true, Bool.not_eq_true'] at enqueueable
  exact enqueueable.1.1.1.1

/-- A statement that does not put back a queued row leaves it queued or deletes it. -/
theorem queued_apply {id : String} {statement : Fleet.Statement} {table : JobTable}
    (keeps : (Event.carryOut statement).Keeps id)
    (queued : ∀ row ∈ table.find id, row.queued = true) :
    ∀ row ∈ (statement.apply table).find id, row.queued = true := by
  intro after located
  rw [Fleet.Statement.find_apply] at located
  obtain ⟨row, found, becomes⟩ := Option.bind_eq_some_iff.mp located
  exact keeps row (JobTable.mem_of_find found).2 (queued row found) after becomes

/-- A statement that is carried out at once claims a row at most once until it is put back. -/
theorem claimedOnce_atomic {id : String} {base : Nat} {before after : Committed}
    (once : ClaimedOnce id base before)
    (moved : Atomic fleet (Event.Keeps id) before after) : ClaimedOnce id base after := by
  cases moved with
  | elapsed duration => exact once
  | claimed claim past distinct limited due =>
      have count : (before.claim claim).claimsOf id =
          before.claimsOf id + if id ∈ claim.ids then 1 else 0 := by
        simp [Committed.claimsOf, Committed.claim, List.countP_append, List.countP_singleton]
      have found : (before.claim claim).table.find id =
          (before.table.find id).map fun row =>
            if decide (row.id ∈ claim.ids) then (enqueueing claim.since).apply row else row :=
        JobTable.find_write _ _ id
      by_cases listed : id ∈ claim.ids
      · obtain ⟨row, present, enqueueable⟩ := (Option.any_eq_true _ _).mp (due id listed)
        have same : row.id = id := (JobTable.mem_of_find present).2
        rw [if_pos listed] at count
        rcases once with first | ⟨-, queued⟩
        · refine .inr ⟨by rw [count, first], fun later located => ?_⟩
          rw [found, present, Option.map_some, same, if_pos (decide_eq_true listed)] at located
          obtain rfl := Option.some.inj located
          rfl
        · have free := enqueueable_queued enqueueable
          rw [queued row present] at free
          cases free
      · rw [if_neg listed, Nat.add_zero] at count
        have kept : (before.claim claim).table.find id = before.table.find id := by
          rw [found]
          cases present : before.table.find id with
          | none => rfl
          | some row =>
              have other : row.id ∉ claim.ids := (JobTable.mem_of_find present).2 ▸ listed
              rw [Option.map_some, if_neg (by simpa using other)]
        rw [ClaimedOnce, count, kept]
        exact once
  | carriedOut statement keeps => exact once.imp_right fun again =>
      ⟨again.1, queued_apply keeps again.2⟩
  | inserted row other fresh =>
      have kept := JobTable.find_insert row fresh id
      rw [if_neg (Ne.symm other)] at kept
      rw [ClaimedOnce, Committed.claimsOf, kept]
      exact once

/-- Whatever the order of steps, all processes together claim a row at most once until some
statement puts it back.  Deleting the row does not. -/
theorem claimed_once {id : String} {earlier later : List Event} {now : Int} {table : JobTable}
    {middle final : State}
    (before : (system fleet).run earlier (.initial now table) = some middle)
    (kept : ∀ event ∈ later, event.Keeps id)
    (execution : (system fleet).run later middle = some final) :
    final.claimsOf id ≤ middle.claimsOf id + 1 := by
  have once : ClaimedOnce id (middle.claimsOf id) final.toCommitted :=
    (simulates (Event.Keeps id)).property (fun _ _ => claimedOnce_atomic)
      (sound_run (sound_initial now table) before) ((system fleet).along_of_forall kept middle)
      execution (.inl rfl)
  rcases once with same | ⟨again, -⟩
  · omega
  · exact again.le

/-! ## Two rivals -/

open Fleet (paymentFleet paymentTable)

/-- Two processes find the same due rows; the second one skips the row that the first one has
tried before, and the maintenance job is finished meanwhile. -/
def rivalRun : List Event :=
  [.begin 0, .begin 1, .tryAdvisoryLock 0 "1", .tryAdvisoryLock 1 "1", .tryAdvisoryLock 1 "2",
    .lockRow 0 "1", .lockRow 1 "2",
    .carryOut (.write ((paymentFleet .prisma).addresses "3") (Fleet.finished 0 none))]

/-- Both claim what they have locked. -/
def rivalEnd : List Event := [.update 1, .elapse 1, .update 0]

def rivalStart : State := .initial (exactSecond + 500) paymentTable

theorem rivals_observed :
    ((system (paymentFleet .prisma)).run rivalRun rivalStart).map (fun reached =>
        ((reached.queries.get 0).map (fun query => (query.keys, query.locked)),
          reached.claimsOf "1")) =
      some (some ([1], ["1"]), 0) ∧
    ((system (paymentFleet .prisma)).run (rivalRun ++ rivalEnd) rivalStart).map (fun final =>
        final.claims.map fun claim => (claim.process, claim.ids)) =
      some [(1, ["2"]), (0, ["1"])] := by
  decide +kernel

theorem rivals_atomic : ∃ final,
    (system (paymentFleet .prisma)).run (rivalRun ++ rivalEnd) rivalStart = some final ∧
    final.claims.map (fun claim => (claim.process, claim.ids)) = [(1, ["2"]), (0, ["1"])] ∧
    Relation.ReflTransGen (Atomic (paymentFleet .prisma) (· ∈ rivalRun ++ rivalEnd))
      ⟨exactSecond + 500, paymentTable, []⟩ final.toCommitted := by
  obtain ⟨final, execution, claims⟩ := Option.map_eq_some_iff.mp rivals_observed.2
  exact ⟨final, execution, claims, queries_atomic execution⟩

theorem rivals_never_wait : ∃ reached query,
    (system (paymentFleet .prisma)).run rivalRun rivalStart = some reached ∧
    reached.queries.get 0 = some query ∧ query.locked = ["1"] ∧
    reached.rowLocked 0 "1" = false := by
  obtain ⟨reached, execution, observed⟩ := Option.map_eq_some_iff.mp rivals_observed.1
  obtain ⟨query, found, seen⟩ := Option.map_eq_some_iff.mp (Prod.mk.inj observed).1
  obtain ⟨keys, locked⟩ := Prod.mk.inj seen
  have free := (never_waits execution found).1 "1" (keys ▸ List.mem_singleton_self 1)
  exact ⟨reached, query, execution, found, locked, free⟩

theorem rivals_claim_once : ∃ middle final,
    (system (paymentFleet .prisma)).run rivalRun rivalStart = some middle ∧
    (system (paymentFleet .prisma)).run rivalEnd middle = some final ∧
    middle.claimsOf "1" = 0 ∧ final.claimsOf "1" ≤ 0 + 1 := by
  obtain ⟨final, execution, -⟩ := Option.map_eq_some_iff.mp rivals_observed.2
  rw [System.run_append] at execution
  obtain ⟨middle, before, after⟩ := Option.bind_eq_some_iff.mp execution
  obtain ⟨reached, reaches, observed⟩ := Option.map_eq_some_iff.mp rivals_observed.1
  obtain rfl := Option.some.inj (reaches.symm.trans before)
  have none := (Prod.mk.inj observed).2
  have kept : ∀ event ∈ rivalEnd, event.Keeps "1" := by
    simp [rivalEnd, Event.Keeps]
  refine ⟨reached, final, before, after, none, ?_⟩
  have once := claimed_once before kept after
  rwa [none] at once

end Claiming

end Steveo.Scheduler
