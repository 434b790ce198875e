import Steveo.Workflow.Redelivery

/-!
# Deliveries that do not wait for commits

A message is handed to the producer inside the transaction that records the step it follows, so
that its handler may start before this transaction commits, or after it has been rolled back.
Here a handler works on the committed rows, its changes wait for the commit, and every published
message is delivered at most once.
-/

namespace Steveo

open Steveo.Action

/-- What has become of a transaction whose body has returned. -/
inductive TransactionStatus
  | pending
  | committed
  | aborted
  deriving DecidableEq

/-- A transaction whose body has returned: the row it is going to write, and the range of the
messages that it has published. -/
structure PendingTransaction where
  workflowId : String
  row : Option WorkflowState
  sentFrom : Nat
  sentTo : Nat
  status : TransactionStatus

/-- Whether a transaction has published the message at a position. -/
def PendingTransaction.Sent (transaction : PendingTransaction) (index : Nat) : Prop :=
  transaction.sentFrom ≤ index ∧ index < transaction.sentTo

/-- The committed rows together with the transactions begun so far and with what the handlers of
the delivered messages have read. -/
structure Race where
  session : Session
  started : List String
  delivered : List Nat
  transactions : List PendingTransaction
  reads : List (Published × Option WorkflowState)

/-- What can happen: a handler is started by a first payload or by a published message, and a
transaction commits or fails to. -/
inductive RaceEvent
  | start (payload : Fields)
  | deliver (index : Nat)
  | commit (position : Nat)
  | abort (position : Nat)

namespace Race

/-- The row that the handler of a payload reads. -/
def readRow (race : Race) (payload : Fields) : Option WorkflowState :=
  match payload.get "workflowId" with
  | some (.str workflowId) => race.session.table workflowId
  | _ => none

/-- Run the handler of a payload up to the commit of its transaction. -/
def opens (race : Race) (workflow : Workflow) (payload : Fields) : Race :=
  if workflow.steps.isEmpty then
    { race with session := race.session.logged (.emit "workflow_step_failure") }
  else
    match exec (workflow.executionId payload) race.session with
    | (.error _, opened) =>
        { race with session := opened.logged (.emit "workflow_step_failure") }
    | (.ok identifier, opened) =>
        match identifier,
          exec (workflow.processPayload identifier payload) (opened.logged .transaction) with
        | .str workflowId, (.ok _, after) =>
            { race with
              session := { after with table := race.session.table }
              transactions := race.transactions ++
                [{ workflowId
                   row := after.table workflowId
                   sentFrom := (publications race.session.log).length
                   sentTo := (publications after.log).length
                   status := .pending }] }
        | _, (_, after) =>
            { race with
              session := { after with table := race.session.table }.logged
                (.emit "workflow_step_failure") }

/-- Decide a pending transaction. -/
def decideTransaction (race : Race) (position : Nat) (transaction : PendingTransaction)
    (status : TransactionStatus) : Race :=
  { race with transactions := race.transactions.set position { transaction with status } }

end Race

namespace Workflow

/-- Handlers that race with the commits of the transactions. -/
def race (workflow : Workflow) : System Race RaceEvent where
  step race event :=
    match event with
    | .start payload =>
        if nullish (payload.get "workflowId") && !race.started.contains
            (workflow.freshId race.session) then
          some
            { race.opens workflow payload with
              started := race.started ++ [workflow.freshId race.session] }
        else
          none
    | .deliver index =>
        if race.delivered.contains index then
          none
        else
          match (publications race.session.log)[index]? with
          | none => none
          | some message =>
              some
                { race.opens workflow message.payload with
                  delivered := race.delivered ++ [index]
                  reads := race.reads ++ [(message, race.readRow message.payload)] }
    | .commit position =>
        match race.transactions[position]? with
        | none => none
        | some transaction =>
            if transaction.status = .pending then
              some
                { race.decideTransaction position transaction .committed with
                  session := (race.session.stored transaction.workflowId transaction.row).logged
                    (.emit "workflow_step_success") }
            else
              none
    | .abort position =>
        match race.transactions[position]? with
        | none => none
        | some transaction =>
            if transaction.status = .pending then
              some
                { race.decideTransaction position transaction .aborted with
                  session := race.session.logged (.emit "workflow_step_failure") }
            else
              none

/-- A delivery waits for the commit of the transaction that published the message, and the message
names the execution that published it and follows a step of which a result can be stored. -/
def AfterCommit (race : Race) : RaceEvent → Prop
  | .deliver index => ∀ message, (publications race.session.log)[index]? = some message →
      message.payload.get "workflowId" = some (.str message.workflowId) ∧
        message.previous ≠ "__proto__" ∧
        ∃ transaction ∈ race.transactions,
          transaction.Sent index ∧ transaction.status = .committed
  | _ => True

/-- No step was run twice, and every handler has read the result that its message carries. -/
structure Recorded (race : Race) : Prop where
  once : (executions race.session.log).Nodup
  recorded : ∀ message row?, (message, row?) ∈ race.reads →
    ∃ row, row? = some row ∧ row.result message.previous = message.result

end Workflow

/-- A row has the result that a message carries, if one of that step can be stored. -/
def Published.StoredIn (message : Published) (row : WorkflowState) : Prop :=
  message.previous ≠ "__proto__" → row.result message.previous = message.result

/-- A message that is not delivered yet and may still be delivered after the commit of the
transaction at a position. -/
structure Awaits (race : Race) (position index : Nat) (transaction : PendingTransaction)
    (message : Published) : Prop where
  begun : race.transactions[position]? = some transaction
  sent : transaction.Sent index
  alive : transaction.status ≠ .aborted
  undelivered : index ∉ race.delivered
  found : (publications race.session.log)[index]? = some message

/-- What holds of a message that may still be delivered. -/
structure Expected (race : Race) (position index : Nat) (transaction : PendingTransaction)
    (message : Published) : Prop where
  owner : message.workflowId = transaction.workflowId
  running : ¬ Ended race.session.log message.workflowId
  row : ∃ row, (if transaction.status = .pending then transaction.row
      else race.session.table message.workflowId) = some row ∧
    row.current = message.step ∧ message.StoredIn row
  alone : ∀ other candidate, race.transactions[other]? = some candidate →
    candidate.workflowId = message.workflowId → candidate.status = .pending → other = position
  unique : ∀ other otherIndex candidate otherMessage,
    Awaits race other otherIndex candidate otherMessage →
      otherMessage.workflowId = message.workflowId → otherIndex = index

/-- What holds in every run in which the deliveries wait for the commits. -/
structure RaceConsistent (workflow : Workflow) (race : Race) : Prop where
  history : workflow.History race.session.log race.started race.delivered
  rows : ∀ workflowId row, race.session.table workflowId = some row → workflowId ∈ race.started
  bounds : ∀ index ∈ race.delivered, index < (publications race.session.log).length
  owners : ∀ transaction ∈ race.transactions, transaction.workflowId ∈ race.started ∧
    transaction.sentTo ≤ (publications race.session.log).length
  unread : ∀ transaction ∈ race.transactions, transaction.status = .pending →
    ∀ index ∈ race.delivered, ¬ transaction.Sent index
  expected : ∀ position index transaction message,
    Awaits race position index transaction message →
      Expected race position index transaction message
  recorded : ∀ message row?, (message, row?) ∈ race.reads →
    ∃ row, row? = some row ∧ row.result message.previous = message.result

namespace RaceConsistent

variable {workflow : Workflow} {race : Race}

/-- What running a handler adds: its calls, at most one message and at most one transaction, all
on behalf of one execution that no other transaction or message is concerned with. -/
structure Extends (workflow : Workflow) (race after : Race) (workflowId : String)
    (transaction? : Option PendingTransaction) (message? : Option Published) : Prop where
  table : after.session.table = race.session.table
  history : workflow.History after.session.log after.started after.delivered
  started : ∀ identifier ∈ race.started, identifier ∈ after.started
  delivered : ∀ index ∈ race.delivered, index ∈ after.delivered
  bounds : ∀ index ∈ after.delivered, index < (publications race.session.log).length
  unread : ∀ transaction ∈ race.transactions, transaction.status = .pending →
    ∀ index ∈ after.delivered, ¬ transaction.Sent index
  member : workflowId ∈ after.started
  others : ∀ position index transaction message,
    Awaits race position index transaction message → index ∉ after.delivered →
      message.workflowId ≠ workflowId
  idle : ∀ transaction ∈ race.transactions, transaction.workflowId = workflowId →
    transaction.status ≠ .pending
  transactions : after.transactions = race.transactions ++ transaction?.toList
  publishes : publications after.session.log =
    publications race.session.log ++ message?.toList
  ends : ∀ owner, Ended after.session.log owner →
    Ended race.session.log owner ∨ owner = workflowId
  range : ∀ transaction ∈ transaction?, transaction.workflowId = workflowId ∧
    transaction.status = .pending ∧
      transaction.sentFrom = (publications race.session.log).length ∧
        transaction.sentTo = (publications after.session.log).length
  message : ∀ message ∈ message?, message.workflowId = workflowId ∧
    ¬ Ended after.session.log workflowId ∧
      ∀ transaction ∈ transaction?, ∃ row, transaction.row = some row ∧
        row.current = message.step ∧ message.StoredIn row
  recorded : ∀ message row?, (message, row?) ∈ after.reads →
    ∃ row, row? = some row ∧ row.result message.previous = message.result

/-- A message awaited after a handler has run was awaited before, or it is the handler's own. -/
theorem Extends.awaits {after : Race} {workflowId : String}
    {transaction? : Option PendingTransaction} {message? : Option Published}
    (extension : Extends workflow race after workflowId transaction? message?)
    (consistent : RaceConsistent workflow race) {position index : Nat}
    {transaction : PendingTransaction} {message : Published}
    (awaits : Awaits after position index transaction message) :
    Awaits race position index transaction message ∨
      (transaction? = some transaction ∧ message? = some message ∧
        position = race.transactions.length ∧
          index = (publications race.session.log).length) := by
  have begun := awaits.begun
  have found := awaits.found
  rw [extension.transactions] at begun
  rw [extension.publishes] at found
  by_cases old : position < race.transactions.length
  · rw [List.getElem?_append_left old] at begun
    obtain ⟨-, bound⟩ := consistent.owners transaction (List.mem_of_getElem? begun)
    have before := awaits.sent.2
    rw [List.getElem?_append_left (by omega)] at found
    exact .inl ⟨begun, awaits.sent, awaits.alive,
      fun member => awaits.undelivered (extension.delivered index member), found⟩
  · rw [List.getElem?_append_right (by omega)] at begun
    cases transaction? with
    | none => simp at begun
    | some candidate =>
        obtain ⟨bound, same⟩ := List.getElem?_eq_some_iff.mp begun
        obtain rfl : candidate = transaction := by simpa using same
        obtain ⟨-, -, sentFrom, sentTo⟩ := extension.range candidate rfl
        obtain ⟨first, last⟩ := awaits.sent
        rw [sentFrom] at first
        rw [List.getElem?_append_right first] at found
        cases message? with
        | none => simp at found
        | some published =>
            obtain ⟨inside, equal⟩ := List.getElem?_eq_some_iff.mp found
            obtain rfl : published = message := by simpa using equal
            simp only [Option.toList_some, List.length_singleton] at bound inside
            exact .inr ⟨rfl, rfl, by omega, by omega⟩

/-- A transaction that is pending after a handler has run is that of the handler, or it was pending
before and belongs to another execution. -/
theorem Extends.pending {after : Race} {workflowId : String}
    {transaction? : Option PendingTransaction} {message? : Option Published}
    (extension : Extends workflow race after workflowId transaction? message?) {position : Nat}
    {candidate : PendingTransaction} (begun : after.transactions[position]? = some candidate)
    (pending : candidate.status = .pending) :
    (race.transactions[position]? = some candidate ∧ candidate.workflowId ≠ workflowId) ∨
      (transaction? = some candidate ∧ position = race.transactions.length) := by
  rw [extension.transactions] at begun
  by_cases old : position < race.transactions.length
  · rw [List.getElem?_append_left old] at begun
    exact .inl ⟨begun, fun same =>
      extension.idle candidate (List.mem_of_getElem? begun) same pending⟩
  · rw [List.getElem?_append_right (by omega)] at begun
    cases transaction? with
    | none => simp at begun
    | some fresh =>
        obtain ⟨bound, same⟩ := List.getElem?_eq_some_iff.mp begun
        obtain rfl : fresh = candidate := by simpa using same
        simp only [Option.toList_some, List.length_singleton] at bound
        exact .inr ⟨rfl, by omega⟩

/-- What is expected of a message is expected of it after a handler has run, and of the message
that the handler has published. -/
theorem Extends.expected {after : Race} {workflowId : String}
    {transaction? : Option PendingTransaction} {message? : Option Published}
    (extension : Extends workflow race after workflowId transaction? message?)
    (consistent : RaceConsistent workflow race) {position index : Nat}
    {transaction : PendingTransaction} {message : Published}
    (awaits : Awaits after position index transaction message) :
    Expected after position index transaction message := by
  rcases extension.awaits consistent awaits with earlier | ⟨fresh, new, last, top⟩
  · have different := extension.others _ _ _ _ earlier awaits.undelivered
    have expected := consistent.expected _ _ _ _ earlier
    refine ⟨expected.owner, fun ended => ?_, ?_, ?_, ?_⟩
    · rcases extension.ends _ ended with past | same
      · exact expected.running past
      · exact different same
    · rw [extension.table]
      exact expected.row
    · intro other candidate begun owner pending
      rcases extension.pending begun pending with ⟨old, -⟩ | ⟨fresh, -⟩
      · exact expected.alone other candidate old owner pending
      · exact absurd ((extension.range candidate fresh).1.symm.trans owner) different.symm
    · intro other otherIndex candidate otherMessage awaits' same
      rcases extension.awaits consistent awaits' with old | ⟨-, new, -, -⟩
      · exact expected.unique _ _ _ _ old same
      · exact absurd ((extension.message otherMessage new).1.symm.trans same) different.symm
  · obtain ⟨owner, running, rows⟩ := extension.message message new
    obtain ⟨transaction_owner, pending, -, -⟩ := extension.range transaction fresh
    refine ⟨owner.trans transaction_owner.symm, owner ▸ running, ?_, ?_, ?_⟩
    · rw [if_pos pending]
      exact rows transaction fresh
    · intro other candidate begun same candidate_pending
      rcases extension.pending begun candidate_pending with ⟨-, apart⟩ | ⟨-, newest⟩
      · exact absurd (same.trans owner) apart
      · omega
    · intro other otherIndex candidate otherMessage awaits' same
      rcases extension.awaits consistent awaits' with old | ⟨-, -, -, newest⟩
      · exact absurd (same.trans owner) (extension.others _ _ _ _ old awaits'.undelivered)
      · omega

/-- Running a handler keeps the invariant. -/
theorem of_extends (consistent : RaceConsistent workflow race) {after : Race} {workflowId : String}
    {transaction? : Option PendingTransaction} {message? : Option Published}
    (extension : Extends workflow race after workflowId transaction? message?) :
    RaceConsistent workflow after := by
  have grows : (publications race.session.log).length ≤
      (publications after.session.log).length := by
    rw [extension.publishes, List.length_append]
    omega
  refine ⟨extension.history, ?_, ?_, ?_, ?_, ?_, extension.recorded⟩
  · intro identifier row found
    rw [extension.table] at found
    exact extension.started _ (consistent.rows identifier row found)
  · exact fun index member => lt_of_lt_of_le (extension.bounds index member) grows
  · intro transaction member
    rw [extension.transactions] at member
    rcases List.mem_append.mp member with old | new
    · obtain ⟨owner, bound⟩ := consistent.owners transaction old
      exact ⟨extension.started _ owner, bound.trans grows⟩
    · obtain ⟨owner, -, -, sentTo⟩ := extension.range transaction (by simpa using new)
      exact ⟨owner ▸ extension.member, sentTo.le⟩
  · intro transaction member pending index delivered
    rw [extension.transactions] at member
    rcases List.mem_append.mp member with old | new
    · exact extension.unread transaction old pending index delivered
    · obtain ⟨-, -, sentFrom, -⟩ := extension.range transaction (by simpa using new)
      have bound := extension.bounds index delivered
      rintro ⟨first, -⟩
      omega
  · exact fun _ _ _ _ awaits => extension.expected consistent awaits

/-- What deciding a transaction does: its status changes, and a commit writes its row. -/
structure Decides (race after : Race) (position : Nat) (transaction : PendingTransaction)
    (status : TransactionStatus) : Prop where
  begun : race.transactions[position]? = some transaction
  pending : transaction.status = .pending
  decided : status ≠ .pending
  transactions : after.transactions = race.transactions.set position { transaction with status }
  started : after.started = race.started
  delivered : after.delivered = race.delivered
  reads : after.reads = race.reads
  emits : ∃ event, after.session.log = race.session.log ++ [.emit event]
  written : status = .committed → after.session.table transaction.workflowId = transaction.row
  apart : ∀ other, other ≠ transaction.workflowId →
    after.session.table other = race.session.table other

namespace Decides

variable {after : Race} {position : Nat} {transaction : PendingTransaction}
  {status : TransactionStatus} (decides : Decides race after position transaction status)

include decides

theorem publishes : publications after.session.log = publications race.session.log := by
  obtain ⟨event, log⟩ := decides.emits
  rw [log]
  simp [Call.publication]

theorem ends {owner : String} (ended : Ended after.session.log owner) :
    Ended race.session.log owner := by
  obtain ⟨event, log⟩ := decides.emits
  rw [log] at ended
  exact (Workflow.History.ended_append_iff (by simp [Call.ended])).mp ended

/-- A message awaited after the decision was awaited before. -/
theorem awaits {other index : Nat} {candidate : PendingTransaction} {message : Published}
    (awaits : Awaits after other index candidate message) :
    (other ≠ position ∧ Awaits race other index candidate message) ∨
      (other = position ∧ candidate = { transaction with status } ∧
        Awaits race position index transaction message) := by
  have candidate_at := awaits.begun
  have found := awaits.found
  have undelivered := awaits.undelivered
  rw [decides.transactions] at candidate_at
  rw [decides.publishes] at found
  rw [decides.delivered] at undelivered
  obtain ⟨bound, -⟩ := List.getElem?_eq_some_iff.mp decides.begun
  by_cases same : other = position
  · subst same
    rw [List.getElem?_set_self bound] at candidate_at
    obtain rfl := Option.some.inj candidate_at
    exact .inr ⟨rfl, rfl, decides.begun, awaits.sent, by simp [decides.pending], undelivered,
      found⟩
  · rw [List.getElem?_set_ne (Ne.symm same)] at candidate_at
    exact .inl ⟨same, candidate_at, awaits.sent, awaits.alive, undelivered, found⟩

/-- A transaction that is still pending was pending before. -/
theorem pending_before {other : Nat} {candidate : PendingTransaction}
    (candidate_at : after.transactions[other]? = some candidate)
    (pending : candidate.status = .pending) : race.transactions[other]? = some candidate := by
  rw [decides.transactions] at candidate_at
  by_cases same : other = position
  · subst same
    obtain ⟨bound, equal⟩ := List.getElem?_eq_some_iff.mp candidate_at
    rw [List.getElem_set_self] at equal
    rw [← equal] at pending
    exact absurd pending decides.decided
  · rwa [List.getElem?_set_ne (Ne.symm same)] at candidate_at

/-- The row that the handler of an awaited message is going to read is still the expected one. -/
theorem row (consistent : RaceConsistent workflow race) {other index : Nat}
    {candidate : PendingTransaction} {message : Published}
    (awaits : Awaits after other index candidate message) :
    ∃ row, (if candidate.status = .pending then candidate.row
        else after.session.table message.workflowId) = some row ∧
      row.current = message.step ∧ message.StoredIn row := by
  rcases decides.awaits awaits with ⟨different, earlier⟩ | ⟨rfl, rfl, earlier⟩
  · have expected := consistent.expected _ _ _ _ earlier
    have foreign : message.workflowId ≠ transaction.workflowId := fun same =>
      different (expected.alone position transaction decides.begun same.symm decides.pending).symm
    rw [decides.apart _ foreign]
    exact expected.row
  · have expected := consistent.expected _ _ _ _ earlier
    have committed : status = .committed := by
      have alive := awaits.alive
      cases status with
      | pending => exact absurd rfl decides.decided
      | committed => rfl
      | aborted => exact absurd rfl alive
    have row := expected.row
    rw [if_pos decides.pending, ← decides.written committed] at row
    simpa [committed, expected.owner] using row

/-- What is expected of a message is expected of it after the decision. -/
theorem expected (consistent : RaceConsistent workflow race) {other index : Nat}
    {candidate : PendingTransaction} {message : Published}
    (awaits : Awaits after other index candidate message) :
    Expected after other index candidate message := by
  have earlier : ∀ {third thirdIndex candidate' message'},
      Awaits after third thirdIndex candidate' message' →
        ∃ before, before.workflowId = candidate'.workflowId ∧
          Awaits race third thirdIndex before message' := by
    intro third thirdIndex candidate' message' awaits'
    rcases decides.awaits awaits' with ⟨-, before⟩ | ⟨rfl, rfl, before⟩
    · exact ⟨candidate', rfl, before⟩
    · exact ⟨transaction, rfl, before⟩
  obtain ⟨before, same, awaited⟩ := earlier awaits
  have expected := consistent.expected _ _ _ _ awaited
  refine ⟨expected.owner.trans same, fun ended => expected.running (decides.ends ended),
    decides.row consistent awaits, ?_, ?_⟩
  · intro third candidate' candidate_at owner pending
    exact expected.alone third candidate' (decides.pending_before candidate_at pending) owner
      pending
  · intro third thirdIndex candidate' message' awaits' owner
    obtain ⟨_, _, awaited'⟩ := earlier awaits'
    exact expected.unique _ _ _ _ awaited' owner

end Decides

/-- Deciding a pending transaction keeps the invariant. -/
theorem of_decides (consistent : RaceConsistent workflow race) {after : Race} {position : Nat}
    {transaction : PendingTransaction} {status : TransactionStatus}
    (decides : Decides race after position transaction status) :
    RaceConsistent workflow after := by
  have known := List.mem_of_getElem? decides.begun
  have member_of : ∀ candidate ∈ after.transactions,
      candidate ∈ race.transactions ∨ candidate = { transaction with status } := by
    intro candidate member
    rw [decides.transactions] at member
    exact List.mem_or_eq_of_mem_set member
  refine ⟨?_, ?_, ?_, ?_, ?_, fun _ _ _ _ awaits => decides.expected consistent awaits, ?_⟩
  · obtain ⟨event, log⟩ := decides.emits
    rw [log, decides.started, decides.delivered]
    exact consistent.history.emit event
  · intro owner row found
    rw [decides.started]
    by_cases same : owner = transaction.workflowId
    · rw [same]
      exact (consistent.owners transaction known).1
    · exact consistent.rows owner row ((decides.apart owner same).symm.trans found)
  · rw [decides.delivered, decides.publishes]
    exact consistent.bounds
  · intro candidate member
    rw [decides.started, decides.publishes]
    rcases member_of candidate member with earlier | rfl
    · exact consistent.owners candidate earlier
    · exact consistent.owners transaction known
  · intro candidate member pending
    rw [decides.delivered]
    rcases member_of candidate member with earlier | rfl
    · exact consistent.unread candidate earlier pending
    · exact absurd pending decides.decided
  · rw [decides.reads]
    exact consistent.recorded

end RaceConsistent

/-! ## What a handler publishes -/

namespace Workflow

variable {workflow : Workflow}

/-- A handler publishes at most one message, and then its row stands at the step of the message
and has the result that the message carries. -/
theorem handled_publishes {workflowId : String} {payload : Fields} {row : WorkflowState}
    {before after : Session} {outcome : Except String Unit}
    (handled : Handled workflow workflowId payload row before outcome after) :
    ∃ message? : Option Published,
      publications after.log = publications before.log ++ message?.toList ∧
        ∀ message ∈ message?, message.workflowId = workflowId ∧
          (∀ owner, Ended after.log owner → Ended before.log owner) ∧
            ∃ stored, after.table workflowId = some stored ∧ stored.current = message.step ∧
              message.StoredIn stored := by
  have calling : publications (called before workflowId row payload).log =
      publications before.log := by
    simp [called, Call.publication]
  cases handled with
  | rejected unwound => exact ⟨none, by simp [unwound.publications_eq], by simp⟩
  | failed _ unwound => exact ⟨none, by simp [unwound.publications_eq, calling], by simp⟩
  | @advanced index step next result ranSession runnable next_at resolved touches =>
      refine ⟨some (workflow.stepMessage workflowId row.current result next), ?_, ?_⟩
      · simp [published, moved, touches.publications_eq, calling, Call.publication]
      · intro message member
        obtain rfl := Option.some.inj member
        refine ⟨rfl, fun owner ended => ?_, _, Function.update_self _ _ _, rfl, ?_⟩
        · have earlier : Ended ranSession.log owner := by
            simpa [published, moved, Ended, or_and_right, exists_or, Call.ended] using ended
          exact (History.ended_append_iff (by simp [Call.ended])).mp
            (ended_of_touches touches earlier)
        · exact fun ordinary => row.result_withResult_self ordinary result
  | finished _ _ _ touches =>
      refine ⟨none, ?_, by simp⟩
      rw [finished]
      split <;> simp [touches.publications_eq, calling, Call.publication]

/-- The transaction of a handler that has returned, if it has. -/
def opensTransaction (race : Race) (workflowId : String)
    (result : Except String Unit × Session) : Option PendingTransaction :=
  match result.1 with
  | .ok _ =>
      some
        { workflowId
          row := result.2.table workflowId
          sentFrom := (publications race.session.log).length
          sentTo := (publications result.2.log).length
          status := .pending }
  | .error _ => none

/-- The session in which a handler leaves the committed rows. -/
def leaves (race : Race) (result : Except String Unit × Session) : Session :=
  match result.1 with
  | .ok _ => { result.2 with table := race.session.table }
  | .error _ =>
      { result.2 with table := race.session.table }.logged (.emit "workflow_step_failure")

theorem opens_processed {race : Race} (steps : workflow.steps ≠ []) {payload : Fields}
    {workflowId : String} {opened : Session}
    (identified : exec (workflow.executionId payload) race.session =
      (.ok (.str workflowId), opened)) :
    race.opens workflow payload =
      { race with
        session := leaves race (exec (workflow.processPayload (.str workflowId) payload)
          (opened.logged .transaction))
        transactions := race.transactions ++ (opensTransaction race workflowId
          (exec (workflow.processPayload (.str workflowId) payload)
            (opened.logged .transaction))).toList } := by
  have nonempty : workflow.steps.isEmpty = false := by simpa using steps
  rw [Race.opens, nonempty, identified]
  simp only [Bool.false_eq_true, if_false]
  rcases exec (workflow.processPayload (.str workflowId) payload) (opened.logged .transaction)
    with ⟨outcome, after⟩
  cases outcome with
  | ok _ => rfl
  | error _ => simp [leaves, opensTransaction]

theorem leaves_publications (race : Race) (result : Except String Unit × Session) :
    publications (leaves race result).log = publications result.2.log := by
  rcases result with ⟨outcome, after⟩
  cases outcome <;> simp [leaves, Call.publication]

theorem leaves_ended {race : Race} {result : Except String Unit × Session} {owner : String}
    (ended : Ended (leaves race result).log owner) : Ended result.2.log owner := by
  rcases result with ⟨outcome, after⟩
  cases outcome with
  | ok _ => exact ended
  | error _ => exact (History.ended_append_iff (by simp [Call.ended])).mp ended

theorem leaves_table (race : Race) (result : Except String Unit × Session) :
    (leaves race result).table = race.session.table := by
  rcases result with ⟨outcome, after⟩
  cases outcome <;> rfl

theorem History.leaves {race : Race} {result : Except String Unit × Session}
    {started : List String} {delivered : List Nat}
    (history : workflow.History result.2.log started delivered) :
    workflow.History (leaves race result).log started delivered := by
  rcases result with ⟨outcome, after⟩
  cases outcome with
  | ok _ => exact history
  | error _ => exact history.emit _

/-- Running a handler of an execution that nothing else is concerned with keeps the invariant. -/
theorem consistent_handled {race : Race} (consistent : RaceConsistent workflow race)
    {workflowId : String} {payload : Fields} {row : WorkflowState} {before after : Session}
    {outcome : Except String Unit} {started : List String} {delivered : List Nat}
    {reads : List (Published × Option WorkflowState)}
    (publishes : publications before.log = publications race.session.log)
    (calm : ∀ owner, Ended before.log owner → Ended race.session.log owner)
    (handled : Handled workflow workflowId payload row before outcome after)
    (running : ¬ Ended race.session.log workflowId)
    (history : workflow.History after.log started delivered)
    (known : ∀ identifier ∈ race.started, identifier ∈ started) (member : workflowId ∈ started)
    (grown : ∀ index ∈ race.delivered, index ∈ delivered)
    (bounds : ∀ index ∈ delivered, index < (publications race.session.log).length)
    (unread : ∀ transaction ∈ race.transactions, transaction.status = .pending →
      ∀ index ∈ delivered, ¬ transaction.Sent index)
    (others : ∀ position index transaction message,
      Awaits race position index transaction message → index ∉ delivered →
        message.workflowId ≠ workflowId)
    (idle : ∀ transaction ∈ race.transactions, transaction.workflowId = workflowId →
      transaction.status ≠ .pending)
    (recorded : ∀ message row?, (message, row?) ∈ reads →
      ∃ row, row? = some row ∧ row.result message.previous = message.result) :
    RaceConsistent workflow
      { session := leaves race (outcome, after)
        started, delivered, reads
        transactions := race.transactions ++
          (opensTransaction race workflowId (outcome, after)).toList } := by
  obtain ⟨message?, sends, message⟩ := handled_publishes handled
  suffices extension : RaceConsistent.Extends workflow race
      { session := leaves race (outcome, after), started, delivered, reads
        transactions := race.transactions ++
          (opensTransaction race workflowId (outcome, after)).toList }
      workflowId (opensTransaction race workflowId (outcome, after)) message? from
    consistent.of_extends extension
  refine
    { table := leaves_table race (outcome, after), history := history.leaves, started := known
      delivered := grown, bounds, unread, member, others, idle, transactions := rfl, recorded
      publishes := ?_, ends := ?_, range := ?_, message := ?_ }
  · rw [leaves_publications, sends, publishes]
  · intro owner ended
    rcases endsMarked_of_handled handled owner (leaves_ended ended) with past | ⟨same, -, -⟩
    · exact .inl (calm owner past)
    · exact .inr same
  · intro transaction opened
    cases outcome with
    | error _ => simp [opensTransaction] at opened
    | ok _ =>
        obtain rfl := Option.some.inj opened
        exact ⟨rfl, rfl, rfl, by rw [leaves_publications]⟩
  · intro sent sends
    obtain ⟨owner, quiet, stored, found, current, result⟩ := message sent sends
    refine ⟨owner, fun ended => running (calm _ (quiet _ (leaves_ended ended))), ?_⟩
    intro transaction opened
    cases outcome with
    | error _ => simp [opensTransaction] at opened
    | ok _ =>
        obtain rfl := Option.some.inj opened
        exact ⟨stored, found, current, result⟩

/-- The execution of a published message is known. -/
theorem started_of_publication {race : Race} (consistent : RaceConsistent workflow race)
    {index : Nat} {message : Published}
    (found : (publications race.session.log)[index]? = some message) :
    message.workflowId ∈ race.started := by
  obtain ⟨-, ran, -⟩ := consistent.history.linked message (List.mem_of_getElem? found)
  exact consistent.history.known _ _ ran

/-- A first message to a workflow without steps only reports its failure. -/
theorem race_start_empty {race : Race} {payload : Fields} (empty : workflow.steps = [])
    (consistent : RaceConsistent workflow race)
    (history : workflow.History race.session.log
      (race.started ++ [workflow.freshId race.session]) race.delivered)
    (others : ∀ position index transaction message,
      Awaits race position index transaction message → index ∉ race.delivered →
        message.workflowId ≠ workflow.freshId race.session)
    (idle : ∀ transaction ∈ race.transactions,
      transaction.workflowId = workflow.freshId race.session → transaction.status ≠ .pending) :
    RaceConsistent workflow
      { race.opens workflow payload with
        started := race.started ++ [workflow.freshId race.session] } := by
  rw [Race.opens, empty]
  simp only [List.isEmpty_nil, if_true]
  suffices extension : RaceConsistent.Extends workflow race
      { race with
        session := race.session.logged (.emit "workflow_step_failure")
        started := race.started ++ [workflow.freshId race.session] }
      (workflow.freshId race.session) none none from consistent.of_extends extension
  refine
    { table := rfl, history := history.emit _, started := fun _ => List.mem_append_left _
      delivered := fun _ => id, bounds := consistent.bounds, unread := consistent.unread
      member := by simp, others, idle, recorded := consistent.recorded
      transactions := by simp, publishes := by simp [Call.publication]
      ends := fun owner ended => .inl ?_, range := by simp, message := by simp }
  exact (History.ended_append_iff (by simp [Call.ended])).mp ended

theorem race_start_consistent (distinct : workflow.DistinctNames) {race : Race} {payload : Fields}
    (consistent : RaceConsistent workflow race)
    (anonymous : nullish (payload.get "workflowId") = true)
    (unused : workflow.freshId race.session ∉ race.started) :
    RaceConsistent workflow
      { race.opens workflow payload with
        started := race.started ++ [workflow.freshId race.session] } := by
  have history : workflow.History race.session.log
      (race.started ++ [workflow.freshId race.session]) race.delivered := by
    simpa using consistent.history.mono [workflow.freshId race.session] []
  have others : ∀ position index transaction message,
      Awaits race position index transaction message → index ∉ race.delivered →
        message.workflowId ≠ workflow.freshId race.session :=
    fun _ _ _ message awaits _ same =>
      unused (same ▸ started_of_publication consistent awaits.found)
  have idle : ∀ transaction ∈ race.transactions,
      transaction.workflowId = workflow.freshId race.session → transaction.status ≠ .pending :=
    fun transaction member same => absurd (same ▸ (consistent.owners transaction member).1) unused
  cases first : workflow.steps[0]? with
  | none =>
      have empty : workflow.steps = [] := by simpa using first
      exact race_start_empty empty consistent history others idle
  | some firstStep =>
      have nonempty : workflow.steps ≠ [] := by
        rintro none
        simp [none] at first
      have absent : race.session.ticked.table (workflow.freshId race.session) = none := by
        cases found : race.session.table (workflow.freshId race.session) with
        | none => exact found
        | some row => exact absurd (consistent.rows _ row found) unused
      have calm : ¬ Ended race.session.log (workflow.freshId race.session) :=
        fun ended => unused (consistent.history.ended_known _ ended)
      have found := begun_table workflow race.session.ticked (workflow.freshId race.session)
        firstStep payload
      have handled := continueFrom_handled distinct (workflow.freshId race.session) payload found
      rw [opens_processed nonempty (exec_executionId_fresh anonymous race.session),
        exec_processPayload_begun anonymous first (workflow.freshId_ne_empty race.session) absent]
      revert handled
      rcases exec (workflow.continueFrom (workflow.freshId race.session) payload
        (workflow.initialRow (workflow.freshId race.session) firstStep payload))
        (workflow.begun race.session.ticked (workflow.freshId race.session) firstStep payload)
        with ⟨outcome, after⟩
      intro handled
      have ticked_history : workflow.History race.session.ticked.log
        (race.started ++ [workflow.freshId race.session]) race.delivered := history
      have calms : ∀ owner, Ended (workflow.begun race.session.ticked
          (workflow.freshId race.session) firstStep payload).log owner →
            Ended race.session.ticked.log owner := fun owner => History.ended_of_begun
      refine consistent_handled consistent ?_ calms handled calm ?_
        (fun _ => List.mem_append_left _) (by simp) (fun _ => id) consistent.bounds
        consistent.unread others idle consistent.recorded
      · simp [History.begun_log, Call.publication]
      · exact ticked_history.of_begun distinct first (by simp)
          (workflow.freshId_ne_empty race.session)
          (fun step ran => unused (consistent.history.known _ step ran)) calm handled

theorem race_deliver_consistent (distinct : workflow.DistinctNames) {race : Race} {index : Nat}
    {message : Published} (consistent : RaceConsistent workflow race)
    (undelivered : index ∉ race.delivered)
    (found : (publications race.session.log)[index]? = some message)
    (afterCommit : AfterCommit race (.deliver index)) :
    RaceConsistent workflow
      { race.opens workflow message.payload with
        delivered := race.delivered ++ [index]
        reads := race.reads ++ [(message, race.readRow message.payload)] } := by
  obtain ⟨carries, storable, transaction, begun, sent, committed⟩ := afterCommit message found
  obtain ⟨position, begun⟩ := List.getElem?_of_mem begun
  obtain ⟨named, ran, adjacent⟩ := consistent.history.linked message (List.mem_of_getElem? found)
  have awaits : Awaits race position index transaction message :=
    ⟨begun, sent, by simp [committed], undelivered, found⟩
  have expected := consistent.expected _ _ _ _ awaits
  have history : workflow.History race.session.log race.started (race.delivered ++ [index]) := by
    simpa using consistent.history.mono [] [index]
  obtain ⟨row, stored, current, result⟩ := expected.row
  rw [if_neg (by simp [committed])] at stored
  have alone : ∀ candidate ∈ race.transactions, candidate.workflowId = message.workflowId →
      candidate.status ≠ .pending := by
    intro candidate member owner pending
    obtain ⟨other, candidate_at⟩ := List.getElem?_of_mem member
    obtain rfl := expected.alone other candidate candidate_at owner pending
    obtain rfl := Option.some.inj (begun.symm.trans candidate_at)
    simp [committed] at pending
  have resumed_at : (resumed race.session message.workflowId).table message.workflowId =
    some row := stored
  have handled := continueFrom_handled distinct message.workflowId message.payload resumed_at
  rw [opens_processed adjacent.nonempty (exec_executionId_named carries race.session),
    exec_processPayload_stored carries named stored]
  revert handled
  rcases exec (workflow.continueFrom message.workflowId message.payload row)
    (resumed race.session message.workflowId) with ⟨outcome, after⟩
  intro handled
  refine consistent_handled consistent ?_ (fun owner => History.ended_of_resumed) handled
    expected.running ?_ (fun _ => id) (started_of_publication consistent found)
    (fun _ => List.mem_append_left _) ?_ ?_ ?_ alone ?_
  · simp [History.resumed_log, Call.publication]
  · refine history.of_resumed distinct found (by simp) expected.running ?_ handled
    exact fun _ _ _ =>
      ⟨current.symm, consistent.history.not_run distinct found undelivered⟩
  · intro other member
    rcases List.mem_append.mp member with earlier | new
    · exact consistent.bounds other earlier
    · rw [List.mem_singleton.mp new]
      exact (List.getElem?_eq_some_iff.mp found).1
  · intro candidate member pending other delivered
    rcases List.mem_append.mp delivered with earlier | new
    · exact consistent.unread candidate member pending other earlier
    · rw [List.mem_singleton.mp new]
      intro candidate_sent
      obtain ⟨other, candidate_at⟩ := List.getElem?_of_mem member
      have candidate_awaits : Awaits race other index candidate message :=
        ⟨candidate_at, candidate_sent, by simp [pending], undelivered, found⟩
      exact alone candidate member
        (consistent.expected _ _ _ _ candidate_awaits).owner.symm pending
  · intro other otherIndex candidate otherMessage awaits' apart same
    have equal := expected.unique _ _ _ _ awaits' same
    exact apart (by simp [equal])
  · intro other row? member
    rcases List.mem_append.mp member with earlier | new
    · exact consistent.recorded other row? earlier
    · obtain ⟨rfl, rfl⟩ := Prod.mk.inj (List.mem_singleton.mp new)
      refine ⟨row, ?_, result storable⟩
      rw [Race.readRow, carries]
      exact stored

section Steps

variable {before after : Race}

theorem race_start {payload : Fields}
    (step : workflow.race.step before (.start payload) = some after) :
    nullish (payload.get "workflowId") = true ∧ workflow.freshId before.session ∉ before.started ∧
      after = { before.opens workflow payload with
        started := before.started ++ [workflow.freshId before.session] } := by
  simp only [race, Option.ite_none_right_eq_some, Option.some.injEq, Bool.and_eq_true,
    Bool.not_eq_true', List.contains_eq_mem, decide_eq_false_iff_not] at step
  exact ⟨step.1.1, step.1.2, step.2.symm⟩

theorem race_deliver {index : Nat}
    (step : workflow.race.step before (.deliver index) = some after) :
    index ∉ before.delivered ∧
      ∃ message, (publications before.session.log)[index]? = some message ∧
        after = { before.opens workflow message.payload with
          delivered := before.delivered ++ [index]
          reads := before.reads ++ [(message, before.readRow message.payload)] } := by
  simp only [race, Option.ite_none_left_eq_some, List.contains_eq_mem, decide_eq_true_eq] at step
  obtain ⟨undelivered, step⟩ := step
  cases found : (publications before.session.log)[index]? with
  | none => simp [found] at step
  | some message =>
      rw [found] at step
      exact ⟨undelivered, message, rfl, (Option.some.inj step).symm⟩

theorem race_commit {position : Nat}
    (step : workflow.race.step before (.commit position) = some after) :
    ∃ transaction, RaceConsistent.Decides before after position transaction .committed := by
  cases begun : before.transactions[position]? with
  | none => simp [race, begun] at step
  | some transaction =>
      simp only [race, begun, Option.ite_none_right_eq_some, Option.some.injEq] at step
      obtain ⟨pending, rfl⟩ := step
      exact ⟨transaction, begun, pending, by simp, rfl, rfl, rfl, rfl, ⟨_, rfl⟩,
        fun _ => Function.update_self _ _ _, fun _ different => Function.update_of_ne different _ _⟩

theorem race_abort {position : Nat}
    (step : workflow.race.step before (.abort position) = some after) :
    ∃ transaction, RaceConsistent.Decides before after position transaction .aborted := by
  cases begun : before.transactions[position]? with
  | none => simp [race, begun] at step
  | some transaction =>
      simp only [race, begun, Option.ite_none_right_eq_some, Option.some.injEq] at step
      obtain ⟨pending, rfl⟩ := step
      exact ⟨transaction, begun, pending, by simp, rfl, rfl, rfl, rfl, ⟨_, rfl⟩, by simp,
        fun _ _ => rfl⟩

end Steps

theorem race_step_consistent (distinct : workflow.DistinctNames) (before : Race)
    (event : RaceEvent) (after : Race) (consistent : RaceConsistent workflow before)
    (afterCommit : AfterCommit before event)
    (step : workflow.race.step before event = some after) : RaceConsistent workflow after := by
  cases event with
  | start payload =>
      obtain ⟨anonymous, unused, rfl⟩ := race_start step
      exact race_start_consistent distinct consistent anonymous unused
  | deliver index =>
      obtain ⟨undelivered, message, found, rfl⟩ := race_deliver step
      exact race_deliver_consistent distinct consistent undelivered found afterCommit
  | commit position =>
      obtain ⟨transaction, decides⟩ := race_commit step
      exact consistent.of_decides decides
  | abort position =>
      obtain ⟨transaction, decides⟩ := race_abort step
      exact consistent.of_decides decides

/-- The state in which nothing has been started. -/
def idleRace (tick : Nat) : Race := ⟨⟨fun _ => none, tick, []⟩, [], [], [], []⟩

theorem raceConsistent_idleRace (workflow : Workflow) (tick : Nat) :
    RaceConsistent workflow (idleRace tick) where
  history := .empty workflow [] []
  rows := by simp [idleRace]
  bounds := by simp [idleRace]
  owners := by simp [idleRace]
  unread := by simp [idleRace]
  expected := by
    intro position index transaction message awaits
    have begun := awaits.begun
    simp [idleRace] at begun
  recorded := by simp [idleRace]

/-- While every delivery waits for the commit of the transaction that published its message, and
no step is named `__proto__`, no step is run twice and every handler reads the result that its
message carries. -/
theorem race_recorded (distinct : workflow.DistinctNames) {tick : Nat} {events : List RaceEvent}
    {final : Race} (along : workflow.race.Along AfterCommit events (idleRace tick))
    (run : workflow.race.run events (idleRace tick) = some final) : Recorded final := by
  have consistent := System.invariant_run (race_step_consistent distinct)
    (raceConsistent_idleRace workflow tick) along run
  exact ⟨consistent.history.once, consistent.recorded⟩

/-- A delivery whose transaction commits before the next one, as in `Workflow.delivery`: the
handler up to its commit, followed by the commit, is the handling of the message. -/
theorem handle_eq_commit (distinct : workflow.DistinctNames) {race : Race} {payload : Fields}
    {workflowId : String} (carries : payload.get "workflowId" = some (.str workflowId))
    (named : workflowId ≠ "") (steps : workflow.steps ≠ []) {row : WorkflowState}
    (found : race.session.table workflowId = some row) {after : Session}
    (returned : exec (workflow.processPayload (.str workflowId) payload)
      (race.session.logged .transaction) = (.ok (), after)) :
    workflow.handle race.session payload =
      ((leaves race (.ok (), after)).stored workflowId (after.table workflowId)).logged
        (.emit "workflow_step_success") := by
  have resumed_at : (resumed race.session workflowId).table workflowId = some row := found
  have handled := continueFrom_handled distinct workflowId payload resumed_at
  rw [← exec_processPayload_stored carries named found, returned] at handled
  have table : Function.update race.session.table workflowId (after.table workflowId) =
      after.table := by
    funext owner
    by_cases same : owner = workflowId
    · rw [same, Function.update_self]
    · rw [Function.update_of_ne same]
      exact (handled_others handled same).symm
  rw [handle, subscribe_settled steps (exec_executionId_named carries race.session), returned]
  simp only [settled, leaves, Session.stored, Session.logged, table]

/-- The message of the second step, delivered after the commit of the first step. -/
theorem resolving_committed_first :
    ∃ final, (resolving ["a", "b", "c"]).race.run [.start [], .commit 0, .deliver 0]
        (idleRace 0) = some final ∧
      executions final.session.log = [("flow-1", "a"), ("flow-1", "b")] ∧ Recorded final := by
  have along : (resolving ["a", "b", "c"]).race.Along AfterCommit
      [.start [], .commit 0, .deliver 0] (idleRace 0) := by
    refine ⟨trivial, fun opened starts => ?_⟩
    obtain rfl := Option.some.inj starts
    refine ⟨trivial, fun committed commits => ?_⟩
    obtain rfl := Option.some.inj commits
    refine ⟨fun message found => ?_, fun _ _ => trivial⟩
    obtain rfl := Option.some.inj found
    exact ⟨rfl, by decide, _, List.mem_singleton.mpr rfl, ⟨le_rfl, Nat.zero_lt_one⟩, rfl⟩
  have distinct : (resolving ["a", "b", "c"]).DistinctNames := by
    simp [DistinctNames, resolving, accepting]
  exact ⟨_, rfl, rfl, race_recorded distinct along rfl⟩

/-- The message of the third step, delivered before the commit of the second step: its handler
finds the row at the second step, and runs that step again. -/
theorem resolving_delivered_early :
    ∃ final, (resolving ["a", "b", "c"]).race.run
        [.start [], .commit 0, .deliver 0, .deliver 1] (idleRace 0) = some final ∧
      executions final.session.log = [("flow-1", "a"), ("flow-1", "b"), ("flow-1", "b")] ∧
        ¬ Recorded final := by
  refine ⟨_, rfl, rfl, fun recorded => ?_⟩
  have twice : [("flow-1", "a"), ("flow-1", "b"), ("flow-1", "b")].Nodup := recorded.once
  simp at twice

end Workflow

end Steveo
