import Steveo.Library.Draining
import Steveo.Messaging.Batch

/-!
# A bad message among others

The body of an SQS message is parsed outside the error handling for the message, and so is the
reading of a property of a body that is `null`.  Such a message rejects the mapping over the batch,
and the messages that the concurrency limit still holds back are not handled in this call.
-/

namespace Steveo

namespace Batch

open Async

variable {η : Type} {setup : Setup η} {topic : String}

/-- The manager is not terminating, the pool lends and takes back, messages can be deleted and
listeners do not throw.  Handlers are free to fail. -/
def Undisturbed : ∀ call : Call η, Except String call.Answer → Prop
  | .shouldTerminate, answer => answer = .ok false
  | .acquire, answer => ∃ resource, answer = .ok resource
  | .release _, answer | .deleteMessage _ _, answer | .emit _ _, answer => answer = .ok ()
  | .subscribe _ _ _, _ => True

/-- The handler has been called. -/
def Subscribed (setup : Setup η) (topic : String) (log : List (Entry (Call.Answer (η := η)))) :
    Prop :=
  ∃ task payload argument answer, setup.registry.getTask topic = some (.own task) ∧
    (⟨.subscribe task payload argument, answer⟩ : Entry Call.Answer) ∈ log

/-- The arrival of the message has been announced and the handler has been called. -/
def Processed (setup : Setup η) (topic : String) (log : List (Entry (Call.Answer (η := η)))) :
    Prop :=
  (∃ answer, (⟨.emit "runner_receive" topic, answer⟩ : Entry Call.Answer) ∈ log) ∧
    Subscribed setup topic log

/-- A message that is not handled at all: its body is not JSON, or is `null`. -/
def Bad (message : SqsMessage) : Prop := message.body = none ∨ message.body = some .null

theorem Processed.mono {log later : List (Entry (Call.Answer (η := η)))}
    (processed : Processed setup topic log) (extended : log <+: later) :
    Processed setup topic later := by
  obtain ⟨⟨answer, announced⟩, task, payload, argument, outcome, known, called⟩ := processed
  exact ⟨⟨answer, extended.subset announced⟩, task, payload, argument, outcome, known,
    extended.subset called⟩

namespace Sqs

theorem deleteMessage_ends (message : SqsMessage) (entries : List (Entry Call.Answer)) :
    (deleteMessage setup topic message).Ends Undisturbed entries fun log outcome =>
      entries <+: log ∧ outcome = .ok () := by
  rw [deleteMessage]
  split
  · exact ⟨List.prefix_refl _, rfl⟩
  · exact ⟨List.prefix_refl _, rfl⟩
  · rw [delete, ends_perform]
    exact fun answer allowed => ⟨List.prefix_append _ _, allowed⟩

/-- Whatever the handler does, the message has been processed when the `try` block ends. -/
theorem handleMessage_processed {message : SqsMessage} {payload : Json} {context : Context}
    {task : RegistryElem η} (readable : getContext setup.arrival payload = .ok context)
    (known : setup.registry.getTask topic = some (.own task))
    (entries : List (Entry Call.Answer)) :
    (handleMessage setup message topic payload).Ends Undisturbed entries fun log _ =>
      Processed setup topic log := by
  rw [handleMessage, ends_bind, ends_ofExcept, readable]
  dsimp only
  rw [ends_bind, emit, ends_perform]
  rintro answer rfl
  dsimp only
  rw [ends_bind]
  have early : (runIf (!waitToCommit setup topic) (deleteMessage setup topic message)).Ends
      Undisturbed (entries ++ [⟨.emit "runner_receive" topic, .ok ()⟩]) fun log outcome =>
        entries ++ [⟨.emit "runner_receive" topic, .ok ()⟩] <+: log ∧ outcome = .ok () := by
    cases !waitToCommit setup topic with
    | true => exact deleteMessage_ends message _
    | false => exact ⟨List.prefix_refl _, rfl⟩
  refine early.imp ?_
  rintro log outcome ⟨announced, rfl⟩
  dsimp only
  rw [known]
  dsimp only
  rw [ends_bind, callback, subscribe, ends_perform]
  intro answer _
  have processed : Processed setup topic (log ++ [⟨.subscribe task
      ((ownFields (some payload)).without "_meta") (.context context), answer⟩]) := by
    refine ⟨⟨.ok (), List.mem_append_left _ (announced.subset ?_)⟩, task, _, _, answer, known, ?_⟩
    · exact List.mem_append_right _ (List.mem_singleton_self _)
    · exact List.mem_append_right _ (List.mem_singleton_self _)
  cases answer with
  | error thrown => exact processed
  | ok _ => exact (ends_extending _ _).imp fun _ _ extended => processed.mono extended

section Handling

variable {message : SqsMessage} {payload : Json} {post : List (Entry (Call.Answer (η := η))) → Prop}

/-- An error of the `try` block is reported and settled. -/
theorem handleOrReport_ends {entries : List (Entry Call.Answer)}
    (handled : (handleMessage setup message topic payload).Ends Undisturbed entries fun log _ =>
      post log ∧ post (log ++ [⟨.emit "runner_failure" topic, .ok ()⟩])) :
    (handleOrReport setup message topic payload).Ends Undisturbed entries fun log outcome =>
      outcome = .ok () ∧ post log := by
  rw [handleOrReport, ends_bind, ends_attempt]
  refine handled.imp ?_
  rintro log (thrown | _) ⟨kept, reported⟩
  · dsimp only
    rw [emit, ends_perform]
    rintro answer rfl
    exact ⟨rfl, reported⟩
  · exact ⟨rfl, kept⟩

/-- A message with a body is handled, and its resource is returned. -/
theorem receive_ends (body : message.body = some payload) (present : payload ≠ .null)
    (handled : ∀ resource, (handleOrReport setup message topic payload).Ends Undisturbed
      [⟨.shouldTerminate, .ok false⟩, ⟨.acquire, .ok resource⟩] fun log outcome =>
        outcome = .ok () ∧ post (log ++ [⟨.release resource, .ok ()⟩])) :
    (receive setup topic message).Ends Undisturbed [] fun log outcome =>
      outcome = .ok () ∧ post log := by
  have checked : nullish payload = false :=
    Bool.eq_false_iff.mpr fun absent => present (nullish_some.mp absent)
  rw [receive, body]
  dsimp only
  rw [processMessage, ends_bind, ends_perform]
  rintro answer rfl
  dsimp only
  rw [if_neg Bool.false_ne_true, ends_bind, ends_perform]
  rintro answer ⟨resource, rfl⟩
  rw [checked]
  dsimp only
  simp only [ends_bind, ends_attempt]
  refine (handled resource).imp ?_
  rintro log outcome ⟨rfl, returned⟩
  rintro answer rfl
  exact ⟨rfl, returned⟩

end Handling

/-- A message that is not bad is fulfilled. -/
theorem receive_fulfils (setup : Setup η) (topic : String) {message : SqsMessage}
    (good : ¬ Bad message) :
    (receive setup topic message).Ends Undisturbed [] fun _ outcome => outcome = .ok () := by
  cases body : message.body with
  | none => exact (good (.inl body)).elim
  | some payload =>
      have present : payload ≠ .null := by
        rintro rfl
        exact good (.inr body)
      have ends : (receive setup topic message).Ends Undisturbed [] fun _ outcome =>
          outcome = .ok () ∧ True :=
        receive_ends body present fun resource =>
          handleOrReport_ends (Ends.of_forall _ fun _ _ => ⟨trivial, trivial⟩)
      exact ends.imp fun _ _ ends => ends.1

/-- A bad message is rejected. -/
theorem receive_rejects {message : SqsMessage} (bad : Bad message) :
    (receive setup topic message).Ends Undisturbed [] fun _ outcome =>
      ∃ thrown, outcome = .error thrown := by
  rw [receive]
  rcases bad with body | body
  · rw [body]
    exact ⟨_, rfl⟩
  · rw [body]
    dsimp only
    rw [processMessage, ends_bind, ends_perform]
    rintro answer rfl
    dsimp only
    rw [if_neg Bool.false_ne_true, ends_bind, ends_perform]
    rintro answer ⟨resource, rfl⟩
    exact ⟨_, rfl⟩

/-- A message with a readable context is processed. -/
theorem receive_processes {message : SqsMessage} {payload : Json} {context : Context}
    {task : RegistryElem η} (body : message.body = some payload) (present : payload ≠ .null)
    (readable : getContext setup.arrival payload = .ok context)
    (known : setup.registry.getTask topic = some (.own task)) :
    (receive setup topic message).Ends Undisturbed [] fun log _ =>
      Processed setup topic log := by
  refine (receive_ends body present fun resource => handleOrReport_ends ?_).imp
    fun _ _ ends => ends.2
  refine (handleMessage_processed readable known _).imp fun log _ processed => ⟨?_, ?_⟩
  · exact processed.mono (List.prefix_append _ _)
  · exact (processed.mono (List.prefix_append _ _)).mono (List.prefix_append _ _)

/-- The handler is not called with a message whose context cannot be read. -/
theorem receive_unreadable (setup : Setup η) (topic : String) {message : SqsMessage}
    {payload : Json} {thrown : String}
    (body : message.body = some payload) (present : payload ≠ .null)
    (unreadable : getContext setup.arrival payload = .error thrown) :
    (receive setup topic message).Ends Undisturbed [] fun log _ =>
      ¬ Subscribed setup topic log := by
  refine (receive_ends body present fun resource => handleOrReport_ends ?_).imp
    fun _ _ ends => ends.2
  rw [handleMessage, ends_bind, ends_ofExcept, unreadable]
  constructor
  · rintro ⟨task, payload, argument, answer, -, called⟩
    simp at called
  · rintro ⟨task, payload, argument, answer, -, called⟩
    simp at called

end Sqs

/-- Every message of a batch whose body is an object is processed before nothing more can happen. -/
def ProcessesObjects (setup : Setup η) (topic : String) (limit : Nat)
    (messages : List SqsMessage) : Prop :=
  ∀ events final, (∀ event ∈ events, Mapping.Event.Admitted Undisturbed event) →
    (Mapping.system Call.Answer Unit).run events
      (Mapping.begin limit (messages.map (Sqs.receive setup topic))) = some final →
    final.Finished →
    ∀ (index : Nat) (message : SqsMessage) (item : Item Call.Answer Unit) (fields : Fields),
      messages[index]? = some message → final.items[index]? = some item →
        message.body = some (.obj fields) → Processed setup topic item.log

/-- A message that the limit holds back. -/
def HeldBack (limit : Nat) (messages : List SqsMessage) (message : SqsMessage) : Prop :=
  limit ≠ 0 ∧ ∃ index, limit ≤ index ∧ messages[index]? = some message

section Runs

variable {messages : List SqsMessage} {limit : Nat} {events : List (Mapping.Event Call.Answer)}
  {final : Mapping (Call.Answer (η := η)) Unit} {task : RegistryElem η}

theorem undisturbed_granting (call : Call η) : Undisturbed call (granting false call) := by
  cases call with
  | shouldTerminate => rfl
  | acquire => exact ⟨_, rfl⟩
  | release resource => rfl
  | deleteMessage queue handle => rfl
  | emit event topic => rfl
  | subscribe task payload argument => trivial

/-- Nothing is processed before it has been started. -/
theorem not_processed_of_unstarted {item : Item (Call.Answer (η := η)) Unit}
    (unstarted : item.started = false) : ¬ Processed setup topic item.log := by
  rintro ⟨⟨answer, announced⟩, -⟩
  rw [item.idle unstarted] at announced
  cases announced

/-- If every object is processed, every context can be read. -/
theorem readable_of_processesObjects (processes : ProcessesObjects setup topic limit messages)
    {message : SqsMessage} {fields : Fields} (member : message ∈ messages)
    (body : message.body = some (.obj fields)) :
    ∃ context, getContext setup.arrival (.obj fields) = .ok context := by
  cases readable : getContext setup.arrival (.obj fields) with
  | ok context => exact ⟨context, rfl⟩
  | error thrown =>
      obtain ⟨index, present⟩ := List.mem_iff_getElem?.mp member
      obtain ⟨events, final, admitted, execution, finished⟩ :=
        Mapping.exists_finish undisturbed_granting
          (Mapping.begin limit (messages.map (Sqs.receive setup topic)))
      obtain ⟨item, found⟩ := Mapping.exists_item execution present
      have ends := Sqs.receive_unreadable setup topic body (by simp) readable
      rw [← Mapping.origin_eq execution present found] at ends
      have missed : ¬ Subscribed setup topic item.log :=
        Mapping.log_of_quiescent admitted execution (finished.quiescent (granting false))
          (List.mem_of_getElem? found) (by simp [Subscribed]) ends
      exact (missed (processes events final admitted execution finished index message item fields
        present found body).2).elim

/-- If every object is processed, no bad message is in a batch that holds objects back. -/
theorem good_of_processesObjects (processes : ProcessesObjects setup topic limit messages)
    {message bad : SqsMessage} {fields : Fields} (held : HeldBack limit messages message)
    (body : message.body = some (.obj fields)) (member : bad ∈ messages) : ¬ Bad bad := by
  intro isBad
  obtain ⟨limited, waiting, late, present⟩ := held
  obtain ⟨rejecting, found⟩ := List.mem_iff_getElem?.mp member
  have apart : rejecting ≠ waiting := by
    rintro rfl
    obtain rfl := Option.some.inj (found.symm.trans present)
    rcases isBad with other | other
    · rw [body] at other
      cases other
    · rw [body] at other
      cases other
  have programs : ∀ {index : Nat} {message : SqsMessage}, messages[index]? = some message →
      (messages.map (Sqs.receive setup topic))[index]? = some (Sqs.receive setup topic message) :=
    fun present => by rw [List.getElem?_map, present, Option.map_some]
  obtain ⟨events, final, admitted, execution, finished, item, placed, unstarted⟩ :=
    Mapping.exists_held_back undisturbed_granting limited (programs found)
      (Sqs.receive_rejects isBad) (programs present) late apart
  exact not_processed_of_unstarted unstarted
    (processes events final admitted execution finished waiting message item fields present placed
      body)

/-- In a batch without bad messages every message is started. -/
theorem started_of_good (good : ∀ message ∈ messages, ¬ Bad message) (limited : limit ≠ 0)
    (admitted : ∀ event ∈ events, event.Admitted Undisturbed)
    (execution : (Mapping.system Call.Answer Unit).run events
      (Mapping.begin limit (messages.map (Sqs.receive setup topic))) = some final)
    (finished : final.Finished) : ∀ item ∈ final.items, item.started = true := by
  have fulfilled : final.rejected = false := by
    refine List.any_eq_false.mpr fun item member rejected => ?_
    obtain ⟨-, thrown, ended⟩ := Item.rejected_iff.mp rejected
    obtain ⟨index, message, present, found⟩ := Mapping.exists_index execution member
    have ends := Sqs.receive_fulfils setup topic (good message (List.mem_of_getElem? present))
    rw [← Mapping.origin_eq execution present found] at ends
    cases Mapping.ends_of_settled admitted execution member ended ends
  have limits := Mapping.limit_run execution
  exact finished.started (granting false) (by rwa [limits]) fulfilled

/-- While the manager is not terminating, every object of a batch is processed if and only if every
context can be read and no bad message is in a batch that holds objects back. -/
theorem processesObjects_iff (known : setup.registry.getTask topic = some (.own task)) :
    ProcessesObjects setup topic limit messages ↔
      (∀ message ∈ messages, ∀ fields, message.body = some (.obj fields) →
        ∃ context, getContext setup.arrival (.obj fields) = .ok context) ∧
      ((∀ message ∈ messages, ¬ Bad message) ∨ ∀ message fields,
        message.body = some (.obj fields) → ¬ HeldBack limit messages message) := by
  constructor
  · intro processes
    refine ⟨fun message member fields body =>
      readable_of_processesObjects processes member body, ?_⟩
    by_contra neither
    simp only [not_or, not_forall, not_not] at neither
    obtain ⟨⟨bad, member, isBad⟩, message, fields, body, held⟩ := neither
    exact good_of_processesObjects processes held body member isBad
  · rintro ⟨readable, spared⟩ events final admitted execution finished index message item fields
      present found body
    have member := List.mem_of_getElem? found
    have started : item.started = true := by
      by_cases early : limit = 0 ∨ index < limit
      · obtain ⟨same, placed, started⟩ := Mapping.started_run execution (Mapping.started_begin
          (by rw [List.getElem?_map, present, Option.map_some]) early)
        obtain rfl := Option.some.inj (found.symm.trans placed)
        exact started
      · obtain ⟨limited, late⟩ := not_or.mp early
        rcases spared with good | spared
        · exact started_of_good good limited admitted execution finished item member
        · exact (spared message fields body
            ⟨limited, index, Nat.le_of_not_lt late, present⟩).elim
    obtain ⟨outcome, settled⟩ :=
      Item.settled_iff.mp (finished.quiescent (granting false) item member started)
    obtain ⟨context, read⟩ := readable message (List.mem_of_getElem? present) fields body
    have ends := Sqs.receive_processes body (by simp) read known
    rw [← Mapping.origin_eq execution present found] at ends
    exact Mapping.ends_of_settled admitted execution member settled ends

end Runs

/-- An instance with a task for one topic. -/
def staffed : Setup Unit where
  registry := Registry.empty.addNewTask { name := "orders", topic := "orders", subscribe := () }
  waitToCommit := none
  arrival := ⟨0, fun _ => none, fun _ => ""⟩

/-- A batch that starts with a message that is not JSON. -/
def brokenAndObject : List SqsMessage := [⟨none, none⟩, ⟨some (.obj []), none⟩]

/-- With a limit of one, a first message that is not JSON keeps the second one from being
handled. -/
theorem broken_holds_back : ¬ ProcessesObjects staffed "orders" 1 brokenAndObject := by
  intro processes
  have finished : (Mapping.begin 1
      (brokenAndObject.map (Sqs.receive staffed "orders"))).Finished := by
    rintro (index | ⟨index, environment⟩)
    · rcases index with _ | _ | index
      · rfl
      · rfl
      · rfl
    · rcases index with _ | _ | index
      · rfl
      · rfl
      · rfl
  have processed := processes [] _ (List.forall_mem_nil _) rfl finished 1 _ _ [] rfl rfl rfl
  exact not_processed_of_unstarted rfl processed

/-- With a limit of two, the second message is handled although the first one is not JSON. -/
theorem broken_beside_object : ProcessesObjects staffed "orders" 2 brokenAndObject := by
  have known : staffed.registry.getTask "orders" =
      some (.own { name := "orders", topic := "orders", subscribe := () }) := rfl
  refine (processesObjects_iff known).mpr ⟨?_, .inr ?_⟩
  · refine List.forall_mem_cons.mpr ⟨fun fields body => ?_, List.forall_mem_singleton.mpr ?_⟩
    · cases body
    · intro fields body
      cases body
      exact ⟨_, rfl⟩
  · rintro message fields - ⟨-, index, late, present⟩
    rcases index with _ | _ | index
    · omega
    · omega
    · cases present

end Batch

end Steveo
