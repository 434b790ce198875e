import Steveo.Library.Mapping
import Steveo.Messaging.Batch

/-!
# Resources of the pool

Both runners take a resource for every message that they handle.  The SQS runner reads a property
of the body between taking the resource and the `try` block that returns it; the Redis runner
returns from its handler, before it gives the resource back, if there is no task for the topic.
-/

namespace Steveo

namespace Batch

open Async

variable {η : Type} {setup : Setup η} {topic : String}

/-- An answered call of the handling of a message. -/
abbrev Answered (η : Type) : Type := Entry (Call.Answer (η := η))

/-- The resource that has been taken by a call. -/
def Answered.acquired : Answered η → Option String
  | ⟨.acquire, .ok resource⟩ => some resource
  | _ => none

/-- The resource that has been passed back by a call. -/
def Answered.released : Answered η → Option String
  | ⟨.release resource, _⟩ => some resource
  | _ => none

/-- The resources taken, in order. -/
def acquisitions (log : List (Answered η)) : List String := log.filterMap Answered.acquired

/-- The resources passed back, in order. -/
def releases (log : List (Answered η)) : List String := log.filterMap Answered.released

/-- The pool has answered with a resource. -/
def TookResource (log : List (Answered η)) : Prop :=
  ∃ resource, (⟨.acquire, .ok resource⟩ : Answered η) ∈ log

/-- A message has been deleted. -/
def Deleted (log : List (Answered η)) : Prop :=
  ∃ queue handle, (⟨.deleteMessage queue handle, .ok ()⟩ : Answered η) ∈ log

/-- Every resource has been passed back as often as it has been taken. -/
def Balanced {α : Type} (mapping : Mapping (Call.Answer (η := η)) α) : Prop :=
  ∀ resource, (mapping.items.flatMap fun item => releases item.log).count resource =
    (mapping.items.flatMap fun item => acquisitions item.log).count resource

/-- A call that neither takes nor returns a resource. -/
def Call.Neutral : Call η → Prop
  | .acquire | .release _ => False
  | .shouldTerminate | .deleteMessage _ _ | .emit _ _ | .subscribe _ _ _ => True

section Logs

variable {log added : List (Answered η)}

@[simp] theorem acquisitions_append (log added : List (Answered η)) :
    acquisitions (log ++ added) = acquisitions log ++ acquisitions added :=
  List.filterMap_append

@[simp] theorem releases_append (log added : List (Answered η)) :
    releases (log ++ added) = releases log ++ releases added :=
  List.filterMap_append

theorem deleted_append : Deleted (log ++ added) ↔ Deleted log ∨ Deleted added := by
  simp only [Deleted, List.mem_append, exists_or]

/-- Calls that leave the pool alone take nothing and return nothing. -/
theorem pool_of_neutral (neutral : ∀ entry ∈ log, entry.1.Neutral) :
    acquisitions log = [] ∧ releases log = [] := by
  constructor
  · refine List.filterMap_eq_nil_iff.mpr fun ⟨call, answer⟩ member => ?_
    have leaves := neutral _ member
    cases call <;> first | rfl | exact leaves.elim
  · refine List.filterMap_eq_nil_iff.mpr fun ⟨call, answer⟩ member => ?_
    have leaves := neutral _ member
    cases call <;> first | rfl | exact leaves.elim

theorem acquisitions_eq_nil_iff : acquisitions log = [] ↔ ¬ TookResource log := by
  rw [acquisitions, List.filterMap_eq_nil_iff, TookResource, not_exists]
  constructor
  · intro none resource member
    exact Option.some_ne_none resource (none _ member)
  · rintro none ⟨call, answer⟩ member
    cases call with
    | acquire =>
        cases answer with
        | error thrown => rfl
        | ok resource => exact (none resource member).elim
    | shouldTerminate => rfl
    | release resource => rfl
    | deleteMessage queue handle => rfl
    | emit event topic => rfl
    | subscribe task payload argument => rfl

end Logs

/-- If every item has returned what it has taken or nothing at all, the pool is balanced exactly if
every item has returned what it has taken. -/
theorem balanced_iff_items {α : Type} {mapping : Mapping (Call.Answer (η := η)) α}
    (returned : ∀ item ∈ mapping.items,
      releases item.log = acquisitions item.log ∨ releases item.log = []) :
    Balanced mapping ↔ ∀ item ∈ mapping.items, releases item.log = acquisitions item.log := by
  simp only [Balanced, List.count_flatMap]
  constructor
  · intro balanced item member
    rcases returned item member with same | nothing
    · exact same
    · rw [nothing, eq_comm, List.eq_nil_iff_forall_not_mem]
      intro resource
      have below : ∀ item ∈ mapping.items,
          (releases item.log).count resource ≤ (acquisitions item.log).count resource := by
        intro other listed
        rcases returned other listed with same | nothing
        · exact (congrArg (List.count resource) same).le
        · rw [nothing]
          exact Nat.zero_le _
      have counts := (Mapping.sum_eq_iff_of_le below).mp (balanced resource).symm item member
      rw [nothing, List.count_nil] at counts
      exact List.count_eq_zero.mp counts
  · intro same resource
    exact congrArg List.sum (List.map_congr_left fun item member =>
      congrArg (List.count resource) (same item member))

/-- A program that leaves the pool alone, with the `finally` block after it, returns one
resource. -/
theorem returns_of_makes {program : Handling η Unit} (makes : program.Makes Call.Neutral)
    {admits : ∀ call : Call η, Except String call.Answer → Prop} (resource : String)
    (entries : List (Answered η)) :
    (do
      let outcome ← program.attempt
      release resource
      ofExcept outcome : Handling η Unit).Ends admits entries fun log _ =>
        acquisitions log = acquisitions entries ∧
          releases log = releases entries ++ [resource] := by
  simp only [ends_bind, ends_attempt, release, ends_perform, ends_ofExcept]
  refine (makes.ends entries).imp ?_
  rintro after outcome ⟨added, rfl, neutral⟩ (thrown | _) -
  all_goals
    obtain ⟨nothing, none⟩ := pool_of_neutral neutral
    simp only [acquisitions_append, releases_append, nothing, none, List.append_nil]
    exact ⟨List.append_nil _, rfl⟩

/-- Calling what is found under a topic leaves the pool alone. -/
theorem callback_makes (task : Found η) (payload : Fields) (argument : Argument) :
    (callback task payload argument).Makes Call.Neutral := by
  cases task with
  | own task => exact (makes_perform _).mpr trivial
  | inherited => trivial

/-! ## The SQS runner -/

namespace Sqs

theorem deleteMessage_makes (message : SqsMessage) :
    (deleteMessage setup topic message).Makes Call.Neutral := by
  rw [deleteMessage]
  split
  · trivial
  · trivial
  · exact (makes_perform _).mpr trivial

/-- The handling of a message leaves the pool alone. -/
theorem handleOrReport_makes (message : SqsMessage) (payload : Json) :
    (handleOrReport setup message topic payload).Makes Call.Neutral := by
  have handles : (handleMessage setup message topic payload).Makes Call.Neutral := by
    have deletes : (deleteMessage setup topic message).Makes Call.Neutral :=
      deleteMessage_makes message
    refine (makes_ofExcept _).bind fun context => Makes.bind ((makes_perform _).mpr trivial)
      fun _ => (deletes.runIf _).bind fun _ => ?_
    cases setup.registry.getTask topic with
    | none => trivial
    | some task =>
        exact (callback_makes task _ _).bind fun _ => (deletes.runIf _).bind fun _ =>
          (makes_ofExcept _).bind fun _ => (makes_perform _).mpr trivial
  refine handles.attempt.bind fun outcome => ?_
  cases outcome with
  | ok _ => trivial
  | error _ => exact (makes_perform _).mpr trivial

/-- A message whose body is `null` returns nothing; any other returns what it has taken. -/
theorem receive_pool (setup : Setup η) (topic : String) (message : SqsMessage)
    (admits : ∀ call : Call η, Except String call.Answer → Prop) :
    (receive setup topic message).Ends admits [] fun log _ =>
      (message.body = some .null → releases log = []) ∧
        (message.body ≠ some .null → releases log = acquisitions log) := by
  rw [receive]
  cases body : message.body with
  | none => exact ⟨fun _ => rfl, fun _ => rfl⟩
  | some payload =>
      dsimp only
      rw [processMessage, ends_bind, ends_perform]
      rintro (thrown | terminating) -
      · exact ⟨fun _ => rfl, fun _ => rfl⟩
      cases terminating with
      | true => exact ⟨fun _ => rfl, fun _ => rfl⟩
      | false =>
          dsimp only
          rw [if_neg Bool.false_ne_true, ends_bind, ends_perform]
          rintro (thrown | resource) -
          · exact ⟨fun _ => rfl, fun _ => rfl⟩
          by_cases null : payload = .null
          · subst null
            exact ⟨fun _ => rfl, fun other => (other rfl).elim⟩
          · have present : nullish payload = false :=
              Bool.eq_false_iff.mpr fun absent => null (nullish_some.mp absent)
            rw [present]
            dsimp only
            refine (returns_of_makes (handleOrReport_makes message payload) resource _).imp ?_
            rintro log - ⟨took, returned⟩
            refine ⟨fun same => (null (Option.some.inj same)).elim, fun _ => ?_⟩
            rw [took, returned]
            rfl

end Sqs

section SqsRuns

variable {messages : List SqsMessage} {limit : Nat} {events : List (Mapping.Event Call.Answer)}
  {final : Mapping (Call.Answer (η := η)) Unit}

/-- When the handling of a batch has settled, every resource has been passed back exactly once, if
and only if no message whose body is `null` has been given one. -/
theorem sqs_balanced_iff
    (execution : (Mapping.system Call.Answer Unit).run events
      (Mapping.begin limit (messages.map (Sqs.receive setup topic))) = some final)
    (quiescent : final.Quiescent) :
    Balanced final ↔ ∀ (index : Nat) (message : SqsMessage) (item : Item Call.Answer Unit),
      messages[index]? = some message → final.items[index]? = some item →
        message.body = some .null → ¬ TookResource item.log := by
  have admitted : ∀ event ∈ events, event.Admitted fun (call : Call η)
      (_ : Except String call.Answer) => True := by
    rintro (index | ⟨index, environment⟩) -
    · trivial
    · exact fun _ => trivial
  have pool : ∀ (index : Nat) (message : SqsMessage) (item : Item Call.Answer Unit),
      messages[index]? = some message → final.items[index]? = some item →
        (message.body = some .null → releases item.log = []) ∧
          (message.body ≠ some .null → releases item.log = acquisitions item.log) := by
    intro index message item present found
    have ends := Sqs.receive_pool setup topic message
      fun (call : Call η) (_ : Except String call.Answer) => True
    rw [← Mapping.origin_eq execution present found] at ends
    exact Mapping.log_of_quiescent admitted execution quiescent (List.mem_of_getElem? found)
      ⟨fun _ => rfl, fun _ => rfl⟩ ends
  rw [balanced_iff_items]
  · constructor
    · intro returned index message item present found null
      rw [← acquisitions_eq_nil_iff, ← returned item (List.mem_of_getElem? found)]
      exact (pool index message item present found).1 null
    · intro spared item member
      obtain ⟨index, message, present, found⟩ := Mapping.exists_index execution member
      obtain ⟨nothing, returned⟩ := pool index message item present found
      by_cases null : message.body = some .null
      · rw [nothing null,
          acquisitions_eq_nil_iff.mpr (spared index message item present found null)]
      · exact returned null
  · intro item member
    obtain ⟨index, message, present, found⟩ := Mapping.exists_index execution member
    obtain ⟨nothing, returned⟩ := pool index message item present found
    exact (em (message.body = some .null)).elim (fun null => .inr (nothing null))
      fun other => .inl (returned other)

end SqsRuns

/-- A message whose body is `null` keeps the resource that it was given. -/
theorem null_keeps_resource :
    ∃ final, (Mapping.system Call.Answer Unit).run
        [.reply 0 (granting false), .reply 0 (granting false)]
        (Mapping.begin 1 ([⟨some .null, none⟩].map (Sqs.receive vacant "orders"))) = some final ∧
      final.Quiescent ∧ ¬ Balanced final := by
  refine ⟨_, rfl, ?_, ?_⟩
  · exact List.forall_mem_singleton.mpr fun _ => rfl
  · intro balanced
    exact absurd (balanced "first") (by decide)

/-- A batch of two messages, the first of which has the body `null`. -/
def nullAndObject : Mapping (Call.Answer (η := Unit)) Unit :=
  Mapping.begin 2
    ([⟨some .null, none⟩, ⟨some (.obj []), none⟩].map (Sqs.receive vacant "orders"))

/-- The manager is terminating when the first message is looked at, but not before. -/
def nullPassedOver : List (Mapping.Event (Call.Answer (η := Unit))) :=
  .reply 0 (granting true) :: List.replicate 4 (.reply 1 (granting false))

/-- A message whose body is `null` keeps nothing if it is passed over. -/
theorem null_passed_over :
    ∃ final, (Mapping.system Call.Answer Unit).run nullPassedOver nullAndObject = some final ∧
      final.Quiescent ∧ Balanced final := by
  have runs : ((Mapping.system Call.Answer Unit).run nullPassedOver nullAndObject).isSome := rfl
  have execution := (Option.some_get runs).symm
  have quiescent : (Option.get _ runs).Quiescent :=
    List.forall_mem_cons.mpr ⟨fun _ => rfl, List.forall_mem_singleton.mpr fun _ => rfl⟩
  refine ⟨_, execution, quiescent, (sqs_balanced_iff execution quiescent).mpr ?_⟩
  intro index message item present found null
  rcases index with _ | _ | index
  · obtain rfl := Option.some.inj found
    rintro ⟨resource, took⟩
    cases took with
    | tail _ took => cases took
  · obtain rfl := Option.some.inj present
    cases null
  · cases present

/-! ## The Redis runner -/

namespace Redis

/-- The pool takes back what it has lent, and the listeners for failures do not throw. -/
def Documented : ∀ call : Call η, Except String call.Answer → Prop
  | .release _, answer => answer = .ok ()
  | .emit event _, answer => event = "runner_failure" → answer = .ok ()
  | .shouldTerminate, _ | .acquire, _ | .deleteMessage _ _, _ | .subscribe _ _ _, _ => True

/-- The `try` block is left early: a message without a task has been deleted. -/
def LeftEarly (setup : Setup η) (topic : String) (log : List (Answered η)) : Prop :=
  setup.registry.getTask topic = none ∧ Deleted log

/-- What is logged of a settled handling: it has kept its resource exactly if it was left early. -/
structure Accounts (setup : Setup η) (topic : String) (log : List (Answered η)) : Prop where
  early : LeftEarly setup topic log → releases log = [] ∧ TookResource log
  normal : ¬ LeftEarly setup topic log → releases log = acquisitions log

variable {admits : ∀ call : Call η, Except String call.Answer → Prop}

/-- The `try` block leaves the pool alone. -/
theorem handleMessage_makes (received : RedisMessage) :
    (handleMessage setup topic received).Makes Call.Neutral := by
  rw [handleMessage]
  cases received.message with
  | none => trivial
  | some params =>
      refine (makes_ofExcept _).bind fun context => Makes.bind ((makes_perform _).mpr trivial)
        fun _ => Makes.bind ((makes_perform _).mpr trivial) fun _ => ?_
      cases setup.registry.getTask topic with
      | none => trivial
      | some task =>
          exact (callback_makes task _ _).bind fun _ => (makes_ofExcept _).bind
            fun _ => Makes.bind ((makes_perform _).mpr trivial) fun _ => trivial

/-- The `try` block is left early exactly if a message without a task has been deleted. -/
theorem handleMessage_early (received : RedisMessage) {entries : List (Answered η)}
    (undeleted : ¬ Deleted entries) :
    (handleMessage setup topic received).Ends admits entries fun log outcome =>
      outcome = .ok false ↔ LeftEarly setup topic log := by
  have threw : ∀ {log : List (Answered η)} {message : String}, ¬ Deleted log →
      ((.error message : Except String Bool) = .ok false ↔ LeftEarly setup topic log) :=
    fun kept => iff_of_false (by simp) fun left => kept left.2
  rw [handleMessage]
  cases received.message with
  | none => exact threw undeleted
  | some params =>
      dsimp only
      rw [ends_bind, ends_ofExcept]
      cases getContext setup.arrival params with
      | error message => exact threw undeleted
      | ok context =>
          dsimp only
          rw [ends_bind, emit, ends_perform]
          rintro (thrown | _) -
          · exact threw (by simpa [Deleted] using undeleted)
          dsimp only
          rw [ends_bind, delete, ends_perform]
          rintro (thrown | _) -
          · exact threw (by simpa [Deleted] using undeleted)
          dsimp only
          cases known : setup.registry.getTask topic with
          | none =>
              exact iff_of_true rfl ⟨known, topic, received.id, by simp⟩
          | some task =>
              have finishes : ∀ (log : List (Answered η)) (outcome : Except String Bool),
                  outcome ≠ .ok false → (outcome = .ok false ↔ LeftEarly setup topic log) :=
                fun _ _ other => iff_of_false other fun left => by cases known.symm.trans left.1
              cases task with
              | inherited => exact finishes _ (.error _) (by simp)
              | own task =>
                  simp only [ends_bind, callback, subscribe, ends_perform, ends_ofExcept, ends_pure]
                  rintro (thrown | _) -
                  · exact finishes _ (.error thrown) (by simp)
                  rintro (thrown | _) -
                  · exact finishes _ (.error thrown) (by simp)
                  · exact finishes _ (.ok true) (by simp)

/-- A handling that is not left early gives back what it has taken. -/
theorem accounts_of_returned {resource : String} {log tail : List (Answered η)}
    (stays : ¬ LeftEarly setup topic log) (undeleted : ¬ Deleted tail)
    (took : acquisitions log = [resource]) (kept : releases log = [])
    (nothing : acquisitions tail = []) (gave : releases tail = [resource]) :
    Accounts setup topic (log ++ tail) where
  early left := (stays ⟨left.1, (deleted_append.mp left.2).resolve_right undeleted⟩).elim
  normal _ := by
    rw [releases_append, acquisitions_append, kept, took, nothing, gave]
    rfl

/-- Handling a message settles without an error.  It returns the resource that it has taken unless
a message without a task has been deleted. -/
theorem receive_pool (setup : Setup η) (topic : String) (received : RedisMessage) :
    (receive setup topic received).Ends Documented [] fun log outcome =>
      outcome = .ok () ∧ Accounts setup topic log := by
  rw [receive, ends_bind, ends_attempt, ends_perform]
  rintro (thrown | resource) -
  · rintro answer admitted
    obtain rfl := admitted rfl
    exact ⟨rfl, fun left => (by simp [LeftEarly, Deleted] at left), fun _ => rfl⟩
  · dsimp only
    rw [ends_bind, ends_attempt]
    have undeleted : ¬ Deleted [(⟨.acquire, .ok resource⟩ : Answered η)] := by simp [Deleted]
    refine (((handleMessage_makes received).ends _).and
      (handleMessage_early received undeleted)).imp ?_
    rintro log outcome ⟨⟨added, rfl, leaves⟩, early⟩
    obtain ⟨nothing, unreleased⟩ := pool_of_neutral leaves
    have took : acquisitions ([⟨.acquire, .ok resource⟩] ++ added) = [resource] := by
      rw [acquisitions_append, nothing]
      rfl
    have kept : releases ([⟨.acquire, .ok resource⟩] ++ added) = [] := by
      rw [releases_append, unreleased]
      rfl
    cases outcome with
    | error thrown =>
        have stays : ¬ LeftEarly setup topic ([⟨.acquire, .ok resource⟩] ++ added) :=
          fun left => by cases early.mpr left
        rintro answer admitted
        obtain rfl := admitted rfl
        rintro answer admitted
        obtain rfl := admitted
        rw [List.append_assoc]
        exact ⟨rfl, accounts_of_returned stays (by simp [Deleted]) took kept rfl rfl⟩
    | ok finished =>
        cases finished with
        | true =>
            have stays : ¬ LeftEarly setup topic ([⟨.acquire, .ok resource⟩] ++ added) :=
              fun left => by cases early.mpr left
            rintro answer admitted
            obtain rfl := admitted
            exact ⟨rfl, accounts_of_returned stays (by simp [Deleted]) took kept rfl rfl⟩
        | false =>
            exact ⟨rfl, fun _ => ⟨kept, resource, by simp⟩,
              fun stayed => (stayed (early.mp rfl)).elim⟩

end Redis

section RedisRuns

variable {messages : List RedisMessage} {events : List (Mapping.Event Call.Answer)}
  {final : Mapping (Call.Answer (η := η)) Unit}

/-- When the handling of some messages has settled, every resource has been passed back exactly
once, if and only if something is found for the topic, a task or what every object inherits, or no
message has been deleted. -/
theorem redis_balanced_iff
    (documented : ∀ event ∈ events, event.Admitted Redis.Documented)
    (execution : (Mapping.system Call.Answer Unit).run events
      (Mapping.begin 0 (messages.map (Redis.receive setup topic))) = some final)
    (settled : final.Settled) :
    Balanced final ↔ (setup.registry.getTask topic).isSome = true ∨
      ∀ item ∈ final.items, ¬ Deleted item.log := by
  have ends : ∀ item ∈ final.items, ∀ outcome, item.program = .settled outcome →
      outcome = .ok () ∧ Redis.Accounts setup topic item.log := by
    intro item member outcome ended
    obtain ⟨index, message, present, found⟩ := Mapping.exists_index execution member
    have pool := Redis.receive_pool setup topic message
    rw [← Mapping.origin_eq execution present found] at pool
    exact Mapping.ends_of_settled documented execution member ended pool
  have fulfilled : ∀ item ∈ final.items, ∃ outcome, item.program = .settled outcome := by
    rcases settled with rejected | fulfilled
    · obtain ⟨item, member, rejected⟩ := List.any_eq_true.mp rejected
      obtain ⟨-, message, ended⟩ := Item.rejected_iff.mp rejected
      cases (ends item member _ ended).1
    · intro item member
      obtain ⟨-, value, ended⟩ := fulfilled item member
      exact ⟨_, ended⟩
  rw [balanced_iff_items]
  · constructor
    · intro returned
      cases known : setup.registry.getTask topic with
      | some task => exact .inl rfl
      | none =>
          refine .inr fun item member deleted => ?_
          obtain ⟨outcome, ended⟩ := fulfilled item member
          obtain ⟨kept, took⟩ := (ends item member outcome ended).2.early ⟨known, deleted⟩
          rw [returned item member] at kept
          exact acquisitions_eq_nil_iff.mp kept took
    · intro known item member
      obtain ⟨outcome, ended⟩ := fulfilled item member
      refine (ends item member outcome ended).2.normal ?_
      rintro ⟨unknown, deleted⟩
      rcases known with known | undeleted
      · rw [unknown] at known
        cases known
      · exact undeleted item member deleted
  · intro item member
    obtain ⟨outcome, ended⟩ := fulfilled item member
    have accounts := (ends item member outcome ended).2
    by_cases left : Redis.LeftEarly setup topic item.log
    · exact .inr (accounts.early left).1
    · exact .inl (accounts.normal left)

end RedisRuns

/-- A message on a topic without a task keeps the resource that it was given. -/
theorem unknown_keeps_resource :
    ∃ final, (Mapping.system Call.Answer Unit).run (List.replicate 3 (.reply 0 (granting false)))
        (Mapping.begin 0 ([⟨"1", some (.obj [])⟩].map (Redis.receive vacant "orders"))) =
          some final ∧
      final.Settled ∧ ¬ Balanced final := by
  refine ⟨_, rfl, .inr ?_, ?_⟩
  · exact List.forall_mem_singleton.mpr ⟨rfl, (), rfl⟩
  · intro balanced
    exact absurd (balanced "first") (by decide)

/-- Every call succeeds but the deletion of a message. -/
def keeping : ∀ call : Call Unit, Except String call.Answer
  | .deleteMessage _ _ => .error "ECONNRESET"
  | call => granting false call

/-- A message that could not be deleted returns its resource, whether or not there is a task. -/
theorem undeleted_balanced :
    ∃ final, (Mapping.system Call.Answer Unit).run (List.replicate 5 (.reply 0 keeping))
        (Mapping.begin 0 ([⟨"1", some (.obj [])⟩].map (Redis.receive vacant "orders"))) =
          some final ∧
      final.Settled ∧ Balanced final := by
  have runs : ((Mapping.system Call.Answer Unit).run (List.replicate 5 (.reply 0 keeping))
      (Mapping.begin 0 ([⟨"1", some (.obj [])⟩].map (Redis.receive vacant "orders")))).isSome :=
    rfl
  have documented : ∀ event ∈ List.replicate 5 (.reply 0 keeping),
      Mapping.Event.Admitted Redis.Documented event := by
    intro event member
    obtain rfl := List.eq_of_mem_replicate member
    intro call
    cases call <;> first | trivial | exact fun _ => rfl
  have settled : (Option.get _ runs).Settled :=
    .inr (List.forall_mem_singleton.mpr ⟨rfl, (), rfl⟩)
  refine ⟨_, (Option.some_get runs).symm, settled,
    (redis_balanced_iff documented (Option.some_get runs).symm settled).mpr (.inr ?_)⟩
  refine List.forall_mem_singleton.mpr ?_
  rintro ⟨queue, handle, deleted⟩
  change _ ∈ [_, _, (⟨.deleteMessage _ _, .error _⟩ : Answered Unit), _, _] at deleted
  simp at deleted

end Batch

end Steveo
