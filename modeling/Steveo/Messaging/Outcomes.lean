import Steveo.Messaging.Sending

/-!
# The recorded outcome of a send

Listeners count the events that a producer emits.  This file says when a call emits one event that
agrees with how its promise settles.  Two producers announce success inside the layers and failure
outside of them, and one announces both a second time when its client calls back.
-/

namespace Steveo

open Steveo.Action Steveo.Sending

variable {σ η : Type}

/-- One event has been emitted, and it says how the call has settled. -/
def Recorded (result : Except String Unit × Sending σ) : Prop :=
  match result.1 with
  | .ok _ => ∃ topic, result.2.events = [.producer_success topic]
  | .error _ => ∃ topic error, result.2.events = [.producer_failure topic error]

theorem Recorded.length_events {result : Except String Unit × Sending σ}
    (recorded : Recorded result) : result.2.events.length = 1 := by
  rcases result with ⟨outcome, after⟩
  cases outcome with
  | ok value =>
      obtain ⟨topic, same⟩ := recorded
      rw [same]
      rfl
  | error err =>
      obtain ⟨topic, err, same⟩ := recorded
      rw [same]
      rfl

/-! ## Through the layers and back -/

/-- How far a call gets through the layers. -/
structure Descent where
  /-- The layers that call `next`, from the outermost one on. -/
  entered : List Layer
  /-- The error of a layer that throws before it calls `next`. -/
  thrown : Option String
  context : MiddlewareContext

/-- Go through the layers until one throws. -/
def descend : List Layer → MiddlewareContext → Descent
  | [], context => ⟨[], none, context⟩
  | layer :: layers, context =>
      match layer.before context with
      | .error err => ⟨[], some err, context⟩
      | .ok context =>
          let inner := descend layers context
          ⟨layer :: inner.entered, inner.thrown, inner.context⟩

/-- How the layers settle around what they wrap. -/
def unwind (entered : List Layer) (outcome : Except String Unit) : Except String Unit :=
  entered.foldr (fun layer settled => layer.after settled) outcome

/-- What happens inside all the layers that are entered. -/
def Descent.innermost {α : Type} (descent : Descent) (callback : Action (Sending σ) α) :
    Action (Sending σ) α :=
  match descent.thrown with
  | some err => throw err
  | none => callback

/-- A call goes through the layers, does what is innermost, and comes back. -/
theorem exec_composePublish (layers : List Layer) (callback : Action (Sending σ) Unit)
    (sending : Sending σ) :
    exec (composePublish layers callback) sending =
      let descent := descend layers sending.context
      let result := exec (descent.innermost callback) { sending with context := descent.context }
      (unwind descent.entered result.1, result.2) := by
  induction layers generalizing sending with
  | nil => rfl
  | cons layer layers ih =>
      rw [composePublish, exec_bind_ok (exec_get sending)]
      cases before : layer.before sending.context with
      | error err =>
          rw [exec_bind_error (exec_ofExcept_error err sending)]
          simp only [descend, before]
          rfl
      | ok context =>
          rw [exec_bind_ok (exec_ofExcept_ok context sending),
            exec_bind_ok (show exec (enter context) sending = (.ok (), _) from rfl),
            exec_bind_ok (exec_attempt _ _), ih]
          simp only [descend, before]
          exact exec_ofExcept _ _

/-- The layers as a whole settle as what they wrap does: a success stays one, and so does a
failure. -/
def PassedOn (entered : List Layer) (outcome : Except String Unit) : Prop :=
  (unwind entered outcome).isOk = outcome.isOk

/-! ## The producers -/

namespace KafkaProducer

/-- The call of the client, with what it reports to its callback. -/
def request (produce : Produce σ) (origin : Origin) (options : Fields) :
    Action (Sending σ) (Option String) := do
  let c := (← get).context
  let data ← ofExcept (encode origin c.payload options)
  give data (produce c.topic data (options.get "key"))

end KafkaProducer

/-- A producer with the clients that it calls. -/
inductive ProducerEngine (σ η : Type)
  | kafka (produce : KafkaProducer.Produce σ)
  | sqs (setting : SqsProducer.Setting σ η)
  | redis (client : RedisProducer.Client σ)
  | dummy

namespace ProducerEngine

/-- Send a payload; the Redis and the dummy producer take no options. -/
def send (engine : ProducerEngine σ η) (layers : List Layer) (origin : Origin) (topic : String)
    (payload : Option Json) (options : Fields) : Action (Sending σ) Unit :=
  match engine with
  | kafka produce => KafkaProducer.send produce layers origin topic payload options
  | sqs setting => SqsProducer.send setting layers origin topic payload options
  | redis client => RedisProducer.send client layers origin topic payload
  | dummy => DummyProducer.send layers origin topic payload

/-- When the events of a call agree with how it settles.  A Kafka producer fails before its client
calls back, and the layers pass that on.  The layers of an SQS or a Redis producer pass on how the
message has been delivered, or the error of a layer that throws before.  A dummy producer always
agrees. -/
def Agrees (engine : ProducerEngine σ η) (layers : List Layer) (origin : Origin) (topic : String)
    (payload : Option Json) (options : Fields) (sending : Sending σ) : Prop :=
  let descent := descend layers (.fresh topic payload)
  let inside := { sending with context := descent.context }
  match engine with
  | kafka produce => ∃ err,
      (exec (descent.innermost (KafkaProducer.request produce origin options)) inside).1 =
        .error err ∧ PassedOn descent.entered (.error err)
  | sqs setting => PassedOn descent.entered
      (exec (descent.innermost (SqsProducer.deliver setting origin options)) inside).1
  | redis client => PassedOn descent.entered
      (exec (descent.innermost (RedisProducer.deliver client origin)) inside).1
  | dummy => True

end ProducerEngine

/-! ## What is emitted -/

/-- A kind of effects that the services and clients may have. -/
structure ClientEffects (relation : Sending σ → Sending σ → Prop) : Prop
    extends EffectRelation relation where
  asked : ∀ {α : Type} (action : Action (SqsSession σ) α), Preserves relation (onSession action)
  listed : ∀ body : Body, Preserves relation
    (modify fun sending => { sending with sent := sending.sent ++ [body] })

namespace ClientEffects

variable {relation : Sending σ → Sending σ → Prop}

theorem get (effects : ClientEffects relation) : Preserves relation (get : Action _ (Sending σ)) :=
  fun sending => effects.refl sending

theorem give (effects : ClientEffects relation) {α : Type} (body : Body) (action : Action σ α) :
    Preserves relation (give body action) :=
  effects.bind (effects.listed body) fun _ => effects.asked _

theorem sqs (effects : ClientEffects relation) (setting : SqsProducer.Setting σ η)
    (origin : Origin) (options : Fields) :
    Preserves relation (SqsProducer.deliver setting origin options) := by
  refine effects.bind effects.get fun sending => ?_
  refine effects.bind (effects.runIf _ ?_) fun _ => ?_
  · exact effects.bind (effects.asked _) fun _ => effects.pure _
  · refine effects.bind (effects.ofExcept _) fun fields => ?_
    refine effects.bind effects.get fun sending => ?_
    refine effects.bind (effects.ofExcept _) fun data => ?_
    exact effects.give _ _

theorem redis (effects : ClientEffects relation) (client : RedisProducer.Client σ)
    (origin : Origin) : Preserves relation (RedisProducer.deliver client origin) := by
  refine effects.bind effects.get fun sending => ?_
  refine effects.bind (effects.ofExcept _) fun fields => ?_
  exact effects.bind (effects.give _ _) fun _ => effects.asked _

theorem kafka (effects : ClientEffects relation) (produce : KafkaProducer.Produce σ)
    (origin : Origin) (options : Fields) :
    Preserves relation (KafkaProducer.request produce origin options) := by
  refine effects.bind effects.get fun sending => ?_
  exact effects.bind (effects.ofExcept _) fun data => effects.give _ _

theorem dummy (effects : ClientEffects relation) (origin : Origin) :
    Preserves relation (DummyProducer.callback origin) := by
  refine effects.bind effects.get fun sending => ?_
  exact effects.bind (effects.ofExcept _) fun fields => effects.pure _

theorem innermost (effects : ClientEffects relation) {α : Type} (descent : Descent)
    {callback : Action (Sending σ) α} (preserved : Preserves relation callback) :
    Preserves relation (descent.innermost callback) := by
  unfold Descent.innermost
  cases descent.thrown with
  | some err => exact effects.throw err
  | none => exact preserved

end ClientEffects

/-- The listeners hear nothing. -/
def Unheard (before after : Sending σ) : Prop := after.events = before.events

theorem effects_unheard : ClientEffects (Unheard : Sending σ → Sending σ → Prop) where
  refl _ := rfl
  trans first second := second.trans first
  asked _ _ := rfl
  listed _ _ := rfl

/-! ## One event -/

theorem Sending.exec_emit (event : ProducerEvent) (sending : Sending σ) :
    exec (emit event) sending = (.ok (), { sending with events := sending.events ++ [event] }) :=
  rfl

theorem exec_wrap (layers : List Layer) (topic : String) (payload : Option Json)
    (callback : Action (Sending σ) Unit) (sending : Sending σ) :
    exec (wrap layers topic payload callback) sending =
      let descent := descend layers (.fresh topic payload)
      let result := exec (descent.innermost callback) { sending with context := descent.context }
      (unwind descent.entered result.1, result.2) := by
  rw [wrap, exec_bind_ok (show exec (enter _) sending = (.ok (), _) from rfl),
    exec_composePublish]

/-- The layers settle around what is innermost, and a failure is reported. -/
def settle (topic : String) (entered : List Layer) (result : Except String Unit × Sending σ) :
    Except String Unit × Sending σ :=
  match unwind entered result.1 with
  | .ok value => (.ok value, result.2)
  | .error ex => (.error ex,
      { result.2 with events := result.2.events ++ [.producer_failure topic ex] })

/-- Sending through layers goes to what is innermost, comes back and reports a failure. -/
theorem exec_send (layers : List Layer) (topic : String) (payload : Option Json)
    (callback : Action (Sending σ) Unit) (sending : Sending σ) :
    exec (reportFailure topic (wrap layers topic payload callback)) sending =
      let descent := descend layers (.fresh topic payload)
      settle topic descent.entered
        (exec (descent.innermost callback) { sending with context := descent.context }) := by
  rw [reportFailure, exec_bind_ok (exec_attempt _ _), exec_wrap, settle]
  dsimp only
  cases unwind (descend layers (.fresh topic payload)).entered _ with
  | ok value => rfl
  | error ex => rfl

/-- A dummy producer announces a success once the layers have settled. -/
theorem DummyProducer.exec_send_ok {layers : List Layer} {origin : Origin} {topic : String}
    {payload : Option Json} {sending after : Sending σ}
    (wrapped : exec (wrap layers topic payload (callback origin)) sending = (.ok (), after)) :
    exec (send layers origin topic payload) sending =
      (.ok (), { after with events := after.events ++ [.producer_success topic] }) := by
  rw [send, reportFailure, exec_bind_ok (exec_attempt _ _), exec_bind_ok wrapped]
  rfl

theorem DummyProducer.exec_send_error {layers : List Layer} {origin : Origin} {topic : String}
    {payload : Option Json} {sending after : Sending σ} {err : String}
    (wrapped : exec (wrap layers topic payload (callback origin)) sending = (.error err, after)) :
    exec (send layers origin topic payload) sending =
      (.error err, { after with events := after.events ++ [.producer_failure topic err] }) := by
  rw [send, reportFailure, exec_bind_ok (exec_attempt _ _), exec_bind_error wrapped]
  rfl

section

variable {topic : String} {entered : List Layer} {outcome : Except String Unit}
  {after : Sending σ}

/-- Where nothing has been emitted inside, the layers have to fail. -/
theorem recorded_settle_nil (quiet : after.events = []) :
    Recorded (settle topic entered (outcome, after)) ↔
      (unwind entered outcome).isOk = false := by
  unfold settle
  cases unwind entered outcome with
  | ok value => simp [Recorded, quiet, Except.isOk, Except.toBool]
  | error ex => simp [Recorded, quiet, Except.isOk, Except.toBool]

/-- Where a success has been announced inside, the layers have to succeed. -/
theorem recorded_settle_success {name : String}
    (announced : after.events = [.producer_success name]) :
    Recorded (settle topic entered (outcome, after)) ↔ (unwind entered outcome).isOk = true := by
  unfold settle
  cases unwind entered outcome with
  | ok value => simp [Recorded, announced, Except.isOk, Except.toBool]
  | error ex => simp [Recorded, announced, Except.isOk, Except.toBool]

/-- Where anything else has been emitted inside, the outcome is not recorded. -/
theorem not_recorded_settle (filled : after.events ≠ [])
    (other : ∀ name, after.events ≠ [.producer_success name]) :
    ¬ Recorded (settle topic entered (outcome, after)) := by
  unfold settle
  cases unwind entered outcome with
  | ok value =>
      rintro ⟨name, same⟩
      exact other name same
  | error ex =>
      rintro ⟨name, err, same⟩
      have counted := congrArg List.length same
      rw [List.length_append] at counted
      exact filled (List.length_eq_zero_iff.mp (Nat.succ.inj counted))

end

/-- What is announced once a delivery has succeeded. -/
theorem Descent.exec_announced (descent : Descent) {deliver announce : Action (Sending σ) Unit}
    (announces : ∀ sending, ∃ topic, exec announce sending = (.ok (),
      { sending with events := sending.events ++ [.producer_success topic] }))
    (inside : Sending σ) :
    (∃ after topic, exec (descent.innermost deliver) inside = (.ok (), after) ∧
      exec (descent.innermost (do deliver; announce)) inside =
        (.ok (), { after with events := after.events ++ [.producer_success topic] })) ∨
    (∃ err after, exec (descent.innermost deliver) inside = (.error err, after) ∧
      exec (descent.innermost (do deliver; announce)) inside = (.error err, after)) := by
  unfold Descent.innermost
  cases descent.thrown with
  | some err => exact Or.inr ⟨err, inside, rfl, rfl⟩
  | none =>
      dsimp only
      rcases delivered : exec deliver inside with ⟨outcome, after⟩
      cases outcome with
      | ok value =>
          obtain ⟨topic, announced⟩ := announces after
          exact Or.inl ⟨after, topic, rfl, (exec_bind_ok delivered _).trans announced⟩
      | error err => exact Or.inr ⟨err, after, rfl, exec_bind_error delivered _⟩

/-- A delivery that is announced inside the layers is recorded once exactly if the layers pass on
how it has ended. -/
theorem recorded_delivery {deliver announce : Action (Sending σ) Unit}
    (unheard : Preserves Unheard deliver)
    (announces : ∀ sending, ∃ topic, exec announce sending = (.ok (),
      { sending with events := sending.events ++ [.producer_success topic] }))
    (layers : List Layer) (topic : String) (payload : Option Json) {sending : Sending σ}
    (quiet : sending.events = []) :
    Recorded (exec (reportFailure topic (wrap layers topic payload (do deliver; announce)))
        sending) ↔
      PassedOn (descend layers (.fresh topic payload)).entered
        (exec ((descend layers (.fresh topic payload)).innermost deliver)
          { sending with context := (descend layers (.fresh topic payload)).context }).1 := by
  rw [exec_send]
  dsimp only
  generalize descend layers (.fresh topic payload) = descent
  have kept := (effects_unheard.innermost descent unheard
    { sending with context := descent.context }).trans quiet
  rcases descent.exec_announced announces { sending with context := descent.context } with
    ⟨after, name, delivered, announced⟩ | ⟨err, after, delivered, announced⟩
  · rw [delivered] at kept
    rw [announced, delivered, recorded_settle_success (by rw [kept]; rfl)]
    rfl
  · rw [delivered] at kept
    rw [announced, delivered, recorded_settle_nil kept]
    rfl

/-- A Kafka producer that hears from its client emits an event for it, and another one for a
success. -/
theorem Descent.exec_kafka (descent : Descent) (produce : KafkaProducer.Produce σ)
    (origin : Origin) (topic : String) (options : Fields) (inside : Sending σ) :
    (∃ err after, exec (descent.innermost (KafkaProducer.request produce origin options)) inside =
        (.error err, after) ∧
      exec (descent.innermost (KafkaProducer.callback produce origin topic options)) inside =
        (.error err, after)) ∨
    (∃ answer after outcome events,
      exec (descent.innermost (KafkaProducer.request produce origin options)) inside =
        (.ok answer, after) ∧
      exec (descent.innermost (KafkaProducer.callback produce origin topic options)) inside =
        (outcome, { after with events := after.events ++ events }) ∧
      events ≠ [] ∧ ∀ name, events ≠ [.producer_success name]) := by
  unfold Descent.innermost
  cases descent.thrown with
  | some err => exact Or.inl ⟨err, inside, rfl, rfl⟩
  | none =>
      dsimp only
      rw [KafkaProducer.request, KafkaProducer.callback, exec_bind_ok (exec_get inside),
        exec_bind_ok (exec_get inside)]
      dsimp only
      cases KafkaProducer.encode origin inside.context.payload options with
      | error err => exact Or.inl ⟨err, inside, rfl, rfl⟩
      | ok data =>
          rw [exec_bind_ok (exec_ofExcept_ok data inside),
            exec_bind_ok (exec_ofExcept_ok data inside),
            KafkaProducer.publish]
          rcases called : exec (give data (produce inside.context.topic data
            (options.get "key"))) inside with ⟨answer, after⟩
          cases answer with
          | error err =>
              refine Or.inl ⟨err, after, rfl, ?_⟩
              rw [exec_bind_error (exec_bind_error called _)]
          | ok answer =>
              cases answer with
              | some err =>
                  refine Or.inr ⟨some err, after, .error "undefined",
                    [.producer_failure inside.context.topic err], rfl, ?_, List.cons_ne_nil _ _, ?_⟩
                  · rw [exec_bind_error ((exec_bind_ok called _).trans rfl)]
                  · intro name same
                    cases same
              | none =>
                  refine Or.inr ⟨none, after, .ok (),
                    [.producer_success inside.context.topic, .producer_success topic], rfl, ?_,
                    List.cons_ne_nil _ _, ?_⟩
                  · rw [exec_bind_ok ((exec_bind_ok called _).trans rfl)]
                    simp [exec_emit]
                  · intro name same
                    cases same

/-- A call of a Kafka producer is recorded once exactly if it fails before the client answers and
the layers pass that on. -/
theorem recorded_kafka (produce : KafkaProducer.Produce σ) (layers : List Layer) (origin : Origin)
    (topic : String) (payload : Option Json) (options : Fields) {sending : Sending σ}
    (quiet : sending.events = []) :
    Recorded (exec (KafkaProducer.send produce layers origin topic payload options) sending) ↔
      (ProducerEngine.kafka produce : ProducerEngine σ η).Agrees layers origin topic payload options
        sending := by
  rw [KafkaProducer.send, exec_send]
  unfold ProducerEngine.Agrees
  dsimp only
  generalize descend layers (.fresh topic payload) = descent
  let inside : Sending σ := { sending with context := descent.context }
  have kept := (effects_unheard.innermost descent
    (effects_unheard.kafka produce origin options) inside).trans quiet
  rcases descent.exec_kafka produce origin topic options inside with
    ⟨err, after, requested, called⟩ |
      ⟨answer, after, outcome, events, requested, called, filled, other⟩
  · rw [requested] at kept
    rw [requested, called, recorded_settle_nil kept]
    constructor
    · exact fun failed => ⟨err, rfl, failed⟩
    · rintro ⟨err', same, failed⟩
      obtain rfl := Except.error.inj same
      exact failed
  · rw [requested] at kept
    rw [requested, called]
    have emitted : after.events ++ events = events := by rw [kept, List.nil_append]
    refine iff_of_false (not_recorded_settle ?_ ?_) ?_
    · rw [emitted]
      exact filled
    · intro name
      rw [emitted]
      exact other name
    · rintro ⟨err, same, -⟩
      cases same

/-- A call of a dummy producer is always recorded once. -/
theorem recorded_dummy (layers : List Layer) (origin : Origin) (topic : String)
    (payload : Option Json) {sending : Sending σ} (quiet : sending.events = []) :
    Recorded (exec (DummyProducer.send layers origin topic payload) sending) := by
  have kept : (exec (wrap layers topic payload (DummyProducer.callback origin))
      sending).2.events = [] := by
    rw [exec_wrap]
    exact (effects_unheard.innermost _ (effects_unheard.dummy origin) _).trans quiet
  rcases wrapped : exec (wrap layers topic payload (DummyProducer.callback origin)) sending with
    ⟨outcome, after⟩
  rw [wrapped] at kept
  cases outcome with
  | ok value =>
      rw [DummyProducer.exec_send_ok wrapped]
      exact ⟨topic, congrArg (· ++ _) kept⟩
  | error err =>
      rw [DummyProducer.exec_send_error wrapped]
      exact ⟨topic, err, congrArg (· ++ _) kept⟩

namespace ProducerEngine

/-- A call emits one event that says how it settles exactly where the engine agrees. -/
theorem recorded_iff (engine : ProducerEngine σ η) (layers : List Layer) (origin : Origin)
    (topic : String) (payload : Option Json) (options : Fields) {sending : Sending σ}
    (quiet : sending.events = []) :
    Recorded (exec (engine.send layers origin topic payload options) sending) ↔
      engine.Agrees layers origin topic payload options sending := by
  cases engine with
  | kafka produce => exact recorded_kafka produce layers origin topic payload options quiet
  | sqs setting =>
      exact recorded_delivery (effects_unheard.sqs setting origin options)
        (fun sending => ⟨sending.context.topic, rfl⟩) layers topic payload quiet
  | redis client =>
      exact recorded_delivery (effects_unheard.redis client origin)
        (fun sending => ⟨topic, rfl⟩) layers topic payload quiet
  | dummy => exact iff_of_true (recorded_dummy layers origin topic payload quiet) trivial

/-! ## A success that is announced twice, and one that is announced too early -/

/-- A Kafka client that delivers every message. -/
def delivering : ProducerEngine Unit Unit := .kafka fun _ _ _ => pure none

/-- An SQS producer whose service knows every queue and takes every message. -/
def accepting : ProducerEngine Unit Unit :=
  .sqs
    { registry := .empty
      config := ⟨none, none⟩
      client := knowing "url"
      sendMessage := fun _ => pure ()
      print := fun _ => "" }

/-- A process at the epoch. -/
def epoch : Origin := ⟨"", 0, (0, 0), 0, fun _ => ""⟩

/-- A session in which nothing has happened. -/
def idle : Sending Unit := ⟨⟨(), .empty⟩, .fresh "" none, [], []⟩

/-- A layer that passes on how `next` settles. -/
def passing : Layer := ⟨.ok, id⟩

/-- A layer that throws once `next` has settled. -/
def throwingAfter : Layer := ⟨.ok, fun _ => .error "Error: late"⟩

/-- The Kafka producer announces a success twice, and the SQS producer announces one although a
layer throws later and the call fails. -/
theorem recorded_twice :
    (exec (delivering.send [] epoch "orders" (some (.obj [])) []) idle).2.events =
        [.producer_success "orders", .producer_success "orders"] ∧
      ¬ Recorded (exec (delivering.send [] epoch "orders" (some (.obj [])) []) idle) ∧
      (exec (accepting.send [throwingAfter] epoch "orders" (some (.obj [])) []) idle).2.events =
        [.producer_success "orders", .producer_failure "orders" "Error: late"] ∧
      ¬ Recorded
        (exec (accepting.send [throwingAfter] epoch "orders" (some (.obj [])) []) idle) := by
  have delivered : (exec (delivering.send [] epoch "orders" (some (.obj [])) []) idle).2.events =
      [.producer_success "orders", .producer_success "orders"] := by decide +kernel
  have late : (exec (accepting.send [throwingAfter] epoch "orders" (some (.obj [])) [])
      idle).2.events = [.producer_success "orders", .producer_failure "orders" "Error: late"] := by
    decide +kernel
  refine ⟨delivered, fun recorded => ?_, late, fun recorded => ?_⟩
  · have counted := recorded.length_events
    rw [delivered] at counted
    cases counted
  · have counted := recorded.length_events
    rw [late] at counted
    cases counted

/-- With a layer that passes on the outcome, a success is announced once. -/
theorem recorded_once :
    Recorded (exec (accepting.send [passing] epoch "orders" (some (.obj [])) []) idle) :=
  (recorded_iff accepting [passing] epoch "orders" (some (.obj [])) [] rfl).mpr rfl

end ProducerEngine

end Steveo
