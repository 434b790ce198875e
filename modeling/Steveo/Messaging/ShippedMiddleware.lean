import Steveo.Messaging.Outcomes

/-!
# The middleware that is shipped

Three packages bring a layer for monitoring on both sides of a queue.  This file says when a
message is published and handled as it would be without them.  One of the layers reads a field that
no producer supplies, and one writes into the object of the caller.
-/

namespace Steveo

open Steveo.Action Steveo.Sending

/-- Assign to a property of a value; a primitive refuses, and an array is kept as an object. -/
def Json.put (print : Json → String) (value : Json) (key : String) (property : Json) :
    Except String Json :=
  match value with
  | .obj fields => .ok (.obj (Fields.put fields key property))
  | .arr items => .ok (.obj ((ownFields (some (.arr items))).put key property))
  | .null => .error ("TypeError: Cannot set properties of null (setting '" ++ key ++ "')")
  | .bool value => .error
      ("TypeError: Cannot create property '" ++ key ++ "' on boolean '" ++ print (.bool value) ++
        "'")
  | .num value => .error
      ("TypeError: Cannot create property '" ++ key ++ "' on number '" ++ print (.num value) ++ "'")
  | .str value => .error
      ("TypeError: Cannot create property '" ++ key ++ "' on string '" ++ value ++ "'")
  | .half unit => .error
      ("TypeError: Cannot create property '" ++ key ++ "' on string '" ++ print (.half unit) ++ "'")

/-! ## The layers -/

namespace SentryMiddleware

def publish : Layer := ⟨.ok, id⟩

/-- An error is reported and thrown again. -/
def consume : Layer := ⟨.ok, id⟩

end SentryMiddleware

namespace NewrelicMiddleware

/-- Send a copy of the payload with the headers of the transaction in the context. -/
def publish : Layer where
  before context :=
    let metadata := context.payload.bind fun payload => payload.get "_meta"
    match context.transaction with
    | none => .error
        "TypeError: Cannot read properties of undefined (reading 'insertDistributedTraceHeaders')"
    | some traceHeaders => .ok { context with
        payload := some (.obj ((ownFields context.payload).put "_meta"
          (.obj ((ownFields metadata).put "traceMetadata" (.str traceHeaders)))))
        shared := false }
  after := id

/-- Handle in a transaction that accepts the headers in the metadata, if there is a text of them. -/
def consume (parse : String → Except String Json) : Layer where
  before context :=
    let metadata := context.payload.bind fun payload => payload.get "_meta"
    match metadata.bind fun metadata => metadata.get "traceMetadata" with
    | some (.str text) => (parse text).map fun _ => context
    | _ => .ok context
  after := id

end NewrelicMiddleware

namespace DataDogMiddleware

/-- The metadata that there are, or a new object for them. -/
def orNew : Option Json → Json
  | none | some .null => .obj []
  | some metadata => metadata

/-- The metadata of what is sent. -/
def getMetaFromContext (context : MiddlewareContext) : Except String Json :=
  match context.payload with
  | none => .error "TypeError: Cannot read properties of undefined (reading '_meta')"
  | some .null => .error "TypeError: Cannot read properties of null (reading '_meta')"
  | some payload => .ok (orNew (payload.get "_meta"))

/-- Write what the tracer injects for a span, if there is one, into the payload itself. -/
def publish (print : Json → String) (span : Option Fields) : Layer where
  before context :=
    match span, context.payload with
    | none, _ | some _, some (.str _) => .ok context
    | some headers, payload => do
        let messageMetadata ← getMetaFromContext context
        let messageMetadata ← messageMetadata.put print "datadog" (.obj headers)
        let payload ← (payload.getD .null).put print "_meta" messageMetadata
        .ok { context with
          payload := some payload
          argument := if context.shared then some payload else context.argument }
  after := id

/-- Handle in a span; the metadata may name the one above it. -/
def consume : Layer where
  before context := (getMetaFromContext context).map fun _ => context
  after := id

end DataDogMiddleware

/-- An instance of a middleware that is shipped. -/
inductive ShippedMiddleware
  | sentry
  | newrelic
  /-- What the tracer injects for the span of the call, if it gives one. -/
  | datadog (span : Option Fields)

namespace ShippedMiddleware

def publish (print : Json → String) : ShippedMiddleware → Layer
  | sentry => SentryMiddleware.publish
  | newrelic => NewrelicMiddleware.publish
  | datadog span => DataDogMiddleware.publish print span

def consume (parse : String → Except String Json) : ShippedMiddleware → Layer
  | sentry => SentryMiddleware.consume
  | newrelic => NewrelicMiddleware.consume parse
  | datadog _ => DataDogMiddleware.consume

end ShippedMiddleware

/-- Run a handler inside the layers. -/
def composeConsume {τ : Type} :
    List Layer → (MiddlewareContext → Action τ Unit) → MiddlewareContext → Action τ Unit
  | [], next, context => next context
  | layer :: layers, next, context => do
      let context ← ofExcept (layer.before context)
      let outcome ← attempt (composeConsume layers next context)
      ofExcept (layer.after outcome)

/-! ## Transparency -/

/-- What a body has besides its metadata. -/
def Body.content : Body → Body
  | .text bytes => .text bytes
  | .object fields => .object (fields.without "_meta")

/-- A call with layers settles and publishes as one without them, and leaves the payload of the
caller as it was. -/
structure PublishedAlike {σ : Type} (plain layered : Except String Unit × Sending σ)
    (payload : Fields) : Prop where
  settled : layered.1.isOk = plain.1.isOk
  published : layered.2.sent.map Body.content = plain.2.sent.map Body.content
  kept : layered.2.context.argument = some (.obj payload)

namespace ShippedMiddleware

/-- Whatever the engine and its client, and whatever the handler, a message is published and
handled as it would be without the layers. -/
structure Transparent (print : Json → String) (parse : String → Except String Json)
    (middleware : List ShippedMiddleware) (payload : Fields) : Prop where
  publishes : ∀ {σ η : Type} (engine : ProducerEngine σ η) (origin : Origin) (topic : String)
    (options : Fields) (sending : Sending σ),
    PublishedAlike (exec (engine.send [] origin topic (some (.obj payload)) options) sending)
      (exec (engine.send (middleware.map (publish print)) origin topic (some (.obj payload))
        options) sending) payload
  handles : ∀ {τ : Type} (topic : String) (next : MiddlewareContext → Action τ Unit),
    composeConsume (middleware.map (consume parse)) next (.fresh topic (some (.obj payload))) =
      next (.fresh topic (some (.obj payload)))

/-- What is injected for the spans, in the order in which the layers write it. -/
def spans (middleware : List ShippedMiddleware) : List Fields :=
  middleware.filterMap fun
    | datadog span => span
    | _ => none

/-- No layer expects a transaction, and what the last span writes is there already. -/
structure Traceless (middleware : List ShippedMiddleware) (payload : Fields) : Prop where
  supplied : newrelic ∉ middleware
  written : ∀ headers, (spans middleware).getLast? = some headers →
    ∃ metadata, payload.get "_meta" = some (.obj metadata) ∧
      Fields.get metadata "datadog" = some (.obj headers)

/-! ## Writing for a span -/

/-- What a span writes into an object. -/
def write (print : Json → String) (fields headers : Fields) : Except String Fields := do
  let messageMetadata ← (DataDogMiddleware.orNew (fields.get "_meta")).put print "datadog"
    (.obj headers)
  .ok (fields.put "_meta" messageMetadata)

variable {print : Json → String} {parse : String → Except String Json}

theorem write_obj {fields metadata : Fields} (found : fields.get "_meta" = some (.obj metadata))
    (headers : Fields) :
    write print fields headers =
      .ok (fields.put "_meta" (.obj (Fields.put metadata "datadog" (.obj headers)))) := by
  rw [write, found]
  rfl

/-- What has been written can be read back. -/
theorem get_write {fields headers after : Fields}
    (written : write print fields headers = .ok after) :
    ∃ metadata, after.get "_meta" = some (.obj metadata) ∧
      Fields.get metadata "datadog" = some (.obj headers) := by
  rw [write] at written
  generalize DataDogMiddleware.orNew (fields.get "_meta") = metadata at written
  cases metadata with
  | obj metadata =>
      obtain rfl := Except.ok.inj written
      exact ⟨_, Fields.get_put_self _ _ _, Fields.get_put_self _ _ _⟩
  | arr items =>
      obtain rfl := Except.ok.inj written
      exact ⟨_, Fields.get_put_self _ _ _, Fields.get_put_self _ _ _⟩
  | null => cases written
  | bool value => cases written
  | num value => cases written
  | str value => cases written
  | half unit => cases written

/-- Into metadata that are an object, the spans only write their own property. -/
theorem foldlM_write_obj {fields metadata : Fields}
    (found : fields.get "_meta" = some (.obj metadata)) {traced : Json}
    (present : metadata.get "datadog" = some traced) (headers : List Fields) :
    ∃ value, headers.foldlM (write print) fields =
      .ok (fields.put "_meta" (.obj (metadata.put "datadog" value))) := by
  induction headers generalizing fields metadata traced with
  | nil =>
      refine ⟨traced, ?_⟩
      rw [Fields.put_get present, Fields.put_get found]
      rfl
  | cons first headers ih =>
      obtain ⟨value, folded⟩ := ih (Fields.get_put_self fields "_meta" _)
        (Fields.get_put_self metadata "datadog" (.obj first))
      refine ⟨value, ?_⟩
      rw [List.foldlM_cons, write_obj found]
      rw [Fields.put_put, Fields.put_put] at folded
      exact folded

/-- The spans leave an object as it is exactly if what the last one writes is there. -/
theorem foldlM_write_eq_self_iff (headers : List Fields) (fields : Fields) :
    headers.foldlM (write print) fields = .ok fields ↔
      ∀ last, headers.getLast? = some last → ∃ metadata,
        fields.get "_meta" = some (.obj metadata) ∧
          Fields.get metadata "datadog" = some (.obj last) := by
  rcases List.eq_nil_or_concat headers with rfl | ⟨earlier, last, rfl⟩
  · refine iff_of_true rfl fun last missing => ?_
    cases missing
  · rw [List.concat_eq_append, List.foldlM_append]
    constructor
    · intro folded last' is_last
      obtain rfl : last = last' := by simpa using is_last
      cases first : earlier.foldlM (write print) fields with
      | error err =>
          rw [first] at folded
          cases folded
      | ok middle =>
          rw [first] at folded
          change (write print middle last >>= pure) = .ok fields at folded
          rw [bind_pure] at folded
          exact get_write folded
    · intro written
      obtain ⟨metadata, found, present⟩ := written last (by simp)
      obtain ⟨value, first⟩ : ∃ value, earlier.foldlM (write print) fields = _ :=
        foldlM_write_obj found present earlier
      rw [first]
      change (write print _ last >>= pure) = _
      rw [bind_pure, write_obj (Fields.get_put_self _ _ _), Fields.put_put, Fields.put_put,
        Fields.put_get present, Fields.put_get found]

/-! ## Through the layers -/

/-- The context of a caller's object that no layer has copied. -/
def given (topic : String) (fields : Fields) : MiddlewareContext :=
  .fresh topic (some (.obj fields))

/-- What a layer makes of the object of a caller. -/
def trace (print : Json → String) (fields : Fields) : ShippedMiddleware → Except String Fields
  | sentry | datadog none => .ok fields
  | newrelic => .error
      "TypeError: Cannot read properties of undefined (reading 'insertDistributedTraceHeaders')"
  | datadog (some headers) => write print fields headers

theorem before_publish (print : Json → String) (layer : ShippedMiddleware) (topic : String)
    (fields : Fields) :
    (publish print layer).before (given topic fields) =
      (trace print fields layer).map (given topic) := by
  cases layer with
  | sentry => rfl
  | newrelic => rfl
  | datadog span =>
      cases span with
      | none => rfl
      | some headers =>
          change (do
            let messageMetadata ← (DataDogMiddleware.orNew (fields.get "_meta")).put print
              "datadog" (.obj headers)
            let payload ← Json.put print (.obj fields) "_meta" messageMetadata
            Except.ok _) = _
          rw [trace, write]
          cases (DataDogMiddleware.orNew (fields.get "_meta")).put print "datadog"
            (.obj headers) with
          | error err => rfl
          | ok messageMetadata => rfl

/-- A call goes through all the layers, or one of them throws. -/
theorem descend_publish (print : Json → String) (middleware : List ShippedMiddleware)
    (topic : String) (fields : Fields) :
    (∃ after, middleware.foldlM (trace print) fields = .ok after ∧
        descend (middleware.map (publish print)) (given topic fields) =
          ⟨middleware.map (publish print), none, given topic after⟩) ∨
      ∃ (err : String) (reached : List ShippedMiddleware),
        middleware.foldlM (trace print) fields = .error err ∧
        (descend (middleware.map (publish print)) (given topic fields)).thrown = some err ∧
        (descend (middleware.map (publish print)) (given topic fields)).entered =
          reached.map (publish print) := by
  induction middleware generalizing fields with
  | nil => exact Or.inl ⟨fields, rfl, rfl⟩
  | cons layer middleware ih =>
      have before := before_publish print layer topic fields
      rw [List.foldlM_cons, List.map_cons, descend, before]
      cases trace print fields layer with
      | error err => exact Or.inr ⟨err, [], rfl, rfl, rfl⟩
      | ok middle =>
          rcases ih middle with ⟨after, folded, descended⟩ | ⟨err, reached, folded, thrown, entered⟩
          · refine Or.inl ⟨after, folded, ?_⟩
            change Descent.mk _ _ _ = _
            rw [descended]
          · exact Or.inr ⟨err, layer :: reached, folded, thrown, congrArg _ entered⟩

/-- The layers can be passed if none expects a transaction and every span can be written. -/
theorem foldlM_trace_eq_ok_iff (middleware : List ShippedMiddleware) (fields after : Fields) :
    middleware.foldlM (trace print) fields = .ok after ↔
      newrelic ∉ middleware ∧ (spans middleware).foldlM (write print) fields = .ok after := by
  induction middleware generalizing fields with
  | nil => simp [spans]
  | cons layer middleware ih =>
      have absent : layer ≠ newrelic →
          (newrelic ∉ layer :: middleware ↔ newrelic ∉ middleware) := by
        intro other
        rw [List.mem_cons, not_or]
        exact and_iff_right (Ne.symm other)
      rw [List.foldlM_cons]
      cases layer with
      | sentry =>
          rw [absent (by simp)]
          exact ih fields
      | newrelic =>
          refine iff_of_false (fun folded => ?_) fun both => both.1 List.mem_cons_self
          cases folded
      | datadog span =>
          rw [absent (by simp)]
          cases span with
          | none => exact ih fields
          | some headers =>
              change (write print fields headers >>= _) = _ ↔
                _ ∧ List.foldlM (write print) fields (headers :: spans middleware) = _
              rw [List.foldlM_cons]
              cases write print fields headers with
              | error err =>
                  refine iff_of_false (fun folded => ?_) fun both => ?_
                  · cases folded
                  · cases both.2
              | ok middle => exact ih middle

theorem traceless_iff (print : Json → String) (middleware : List ShippedMiddleware)
    (payload : Fields) :
    Traceless middleware payload ↔ middleware.foldlM (trace print) payload = .ok payload := by
  rw [foldlM_trace_eq_ok_iff, foldlM_write_eq_self_iff]
  constructor
  · exact fun traceless => ⟨traceless.supplied, traceless.written⟩
  · exact fun both => ⟨both.1, both.2⟩

/-- The layers pass on how what they wrap settles. -/
theorem unwind_publish (middleware : List ShippedMiddleware) (outcome : Except String Unit) :
    unwind (middleware.map (publish print)) outcome = outcome := by
  induction middleware with
  | nil => rfl
  | cons layer middleware ih =>
      change (publish print layer).after (unwind (middleware.map (publish print)) outcome) = _
      rw [ih]
      cases layer <;> rfl

/-- Layers that leave the object as it is make no difference. -/
theorem wrap_traceless {σ : Type} {middleware : List ShippedMiddleware} {payload : Fields}
    (same : middleware.foldlM (trace print) payload = .ok payload) (topic : String)
    (callback : Action (Sending σ) Unit) :
    wrap (middleware.map (publish print)) topic (some (.obj payload)) callback =
      wrap [] topic (some (.obj payload)) callback := by
  refine Action.ext fun sending => ?_
  rw [exec_wrap, exec_wrap]
  rcases descend_publish print middleware topic payload with
    ⟨after, folded, descended⟩ | ⟨err, reached, folded, thrown, entered⟩
  · obtain rfl : after = payload := Except.ok.inj (folded.symm.trans same)
    change descend _ (MiddlewareContext.fresh _ _) = _ at descended
    rw [descended]
    dsimp only
    rw [unwind_publish]
    rfl
  · cases folded.symm.trans same

theorem send_traceless {σ η : Type} {middleware : List ShippedMiddleware} {payload : Fields}
    (same : middleware.foldlM (trace print) payload = .ok payload) (engine : ProducerEngine σ η)
    (origin : Origin) (topic : String) (options : Fields) :
    engine.send (middleware.map (publish print)) origin topic (some (.obj payload)) options =
      engine.send [] origin topic (some (.obj payload)) options := by
  cases engine with
  | kafka produce =>
      exact congrArg (reportFailure topic) (wrap_traceless same topic _)
  | sqs setting => exact congrArg (reportFailure topic) (wrap_traceless same topic _)
  | redis client => exact congrArg (reportFailure topic) (wrap_traceless same topic _)
  | dummy =>
      refine congrArg (reportFailure topic) ?_
      rw [wrap_traceless same topic]

/-- A handler runs in every layer but one as it would without. -/
theorem handle_traceless {τ : Type} {middleware : List ShippedMiddleware}
    (supplied : newrelic ∉ middleware) (topic : String) (payload : Fields)
    (next : MiddlewareContext → Action τ Unit) :
    composeConsume (middleware.map (consume parse)) next (given topic payload) =
      next (given topic payload) := by
  induction middleware with
  | nil => rfl
  | cons layer middleware ih =>
      have before : (consume parse layer).before (given topic payload) = .ok (given topic payload) ∧
          (consume parse layer).after = id := by
        cases layer with
        | sentry => exact ⟨rfl, rfl⟩
        | newrelic => exact absurd List.mem_cons_self supplied
        | datadog span => exact ⟨rfl, rfl⟩
      refine Action.ext fun state => ?_
      rw [List.map_cons, composeConsume, before.1, before.2,
        exec_bind_ok (exec_ofExcept_ok _ _), exec_bind_ok (exec_attempt _ _),
        ih fun member => supplied (List.mem_cons_of_mem _ member)]
      exact exec_ofExcept _ _

/-! ## The layers make no difference exactly if they leave no trace -/

/-- The context is not replaced. -/
def Unchanged {σ : Type} (before after : Sending σ) : Prop := after.context = before.context

theorem effects_unchanged {σ : Type} :
    ClientEffects (Unchanged : Sending σ → Sending σ → Prop) where
  refl _ := rfl
  trans first second := second.trans first
  asked _ _ := rfl
  listed _ _ := rfl

theorem unchanged_publish {σ : Type} (produce : KafkaProducer.Produce σ) (topic : String)
    (data : Body) (key : Option Json) :
    Preserves Unchanged (KafkaProducer.publish produce topic data key) := by
  refine effects_unchanged.bind (effects_unchanged.give _ _) fun answer => ?_
  cases answer with
  | none => exact fun _ => rfl
  | some err => exact fun _ => rfl

theorem context_settle {σ : Type} (topic : String) (entered : List Layer)
    (result : Except String Unit × Sending σ) :
    (settle topic entered result).2.context = result.2.context := by
  unfold settle
  cases unwind entered result.1 with
  | ok value => rfl
  | error ex => rfl

/-- Without layers, the context stays that of the call. -/
theorem context_send {σ η : Type} (engine : ProducerEngine σ η) (origin : Origin) (topic : String)
    (payload : Option Json) (options : Fields) (sending : Sending σ) :
    (exec (engine.send [] origin topic payload options) sending).2.context =
      .fresh topic payload := by
  have stays : ∀ {callback : Action (Sending σ) Unit}, Preserves Unchanged callback →
      (exec (reportFailure topic (wrap [] topic payload callback)) sending).2.context =
        .fresh topic payload := by
    intro callback unchanged
    rw [exec_send]
    exact (context_settle _ _ _).trans (unchanged { sending with context := .fresh topic payload })
  cases engine with
  | kafka produce =>
      refine stays ?_
      refine effects_unchanged.bind effects_unchanged.get fun inside => ?_
      refine effects_unchanged.bind (effects_unchanged.ofExcept _) fun data => ?_
      exact effects_unchanged.bind (unchanged_publish _ _ _ _) fun _ _ => rfl
  | sqs setting =>
      refine stays ?_
      refine effects_unchanged.bind (effects_unchanged.sqs setting origin options) fun _ => ?_
      exact effects_unchanged.bind effects_unchanged.get fun _ _ => rfl
  | redis client =>
      refine stays ?_
      exact effects_unchanged.bind (effects_unchanged.redis client origin) fun _ _ => rfl
  | dummy =>
      have unchanged :=
        effects_unchanged.dummy origin { sending with context := .fresh topic payload }
      rcases wrapped : exec (wrap [] topic payload (DummyProducer.callback origin)) sending with
        ⟨outcome, after⟩
      have kept : after.context = .fresh topic payload := by
        rw [exec_wrap] at wrapped
        obtain rfl := congrArg Prod.snd wrapped
        exact unchanged
      cases outcome with
      | ok value =>
          rw [ProducerEngine.send, DummyProducer.exec_send_ok wrapped]
          exact kept
      | error err =>
          rw [ProducerEngine.send, DummyProducer.exec_send_error wrapped]
          exact kept

/-- The layers that are shipped make no difference exactly if they leave no trace. -/
theorem transparent_iff (print : Json → String) (parse : String → Except String Json)
    (middleware : List ShippedMiddleware) (payload : Fields) :
    Transparent print parse middleware payload ↔ Traceless middleware payload := by
  constructor
  · intro transparent
    -- The dummy producer accepts every object, so that the layers alone decide.
    have alike := transparent.publishes (.dummy : ProducerEngine Unit Unit) ProducerEngine.epoch
      "orders" [] ProducerEngine.idle
    have plain : (exec (ProducerEngine.send (.dummy : ProducerEngine Unit Unit) []
        ProducerEngine.epoch "orders" (some (.obj payload)) []) ProducerEngine.idle).1 = .ok () :=
      rfl
    have through := exec_wrap (middleware.map (publish print)) "orders" (some (.obj payload))
      (DummyProducer.callback ProducerEngine.epoch) ProducerEngine.idle
    rcases descend_publish print middleware "orders" payload with
      ⟨after, folded, descended⟩ | ⟨err, reached, folded, thrown, entered⟩
    · change descend _ (MiddlewareContext.fresh _ _) = _ at descended
      rw [descended] at through
      dsimp only at through
      rw [unwind_publish] at through
      have kept := alike.kept
      rw [ProducerEngine.send, DummyProducer.exec_send_ok through] at kept
      obtain rfl : after = payload := Json.obj.inj (Option.some.inj kept)
      exact (traceless_iff print middleware after).mpr folded
    · change (descend _ (MiddlewareContext.fresh _ _)).thrown = _ at thrown
      change (descend _ (MiddlewareContext.fresh _ _)).entered = _ at entered
      dsimp only at through
      rw [Descent.innermost, thrown, entered, unwind_publish] at through
      have settled := alike.settled
      rw [plain, ProducerEngine.send, DummyProducer.exec_send_error through] at settled
      cases settled
  · intro traceless
    have same := (traceless_iff print middleware payload).mp traceless
    constructor
    · intro σ η engine origin topic options sending
      rw [send_traceless same]
      exact ⟨rfl, rfl, congrArg MiddlewareContext.argument (context_send _ _ _ _ _ _)⟩
    · intro τ topic next
      exact handle_traceless traceless.supplied topic payload next

/-- A span for which the tracer injects one header. -/
def traced : ShippedMiddleware := datadog (some [("x-datadog-trace-id", .str "1")])

/-- A call of an SQS producer with layers, for an empty object. -/
def sending (middleware : List ShippedMiddleware) : Except String Unit × Sending Unit :=
  exec (ProducerEngine.accepting.send (middleware.map (publish fun _ => "")) ProducerEngine.epoch
    "orders" (some (.obj [])) []) ProducerEngine.idle

/-- No producer supplies the transaction that one layer expects, and another one writes into the
object of the caller. -/
theorem layers_leave_traces :
    (sending []).1.isOk = true ∧
      (sending [newrelic]).1.isOk = false ∧
      ¬ Transparent (fun _ => "") (fun _ => .ok .null) [newrelic] [] ∧
      (sending [traced]).2.context.argument =
        some (.obj [("_meta", .obj [("datadog", .obj [("x-datadog-trace-id", .str "1")])])]) ∧
      ¬ Transparent (fun _ => "") (fun _ => .ok .null) [traced] [] := by
  have plain : (sending []).1.isOk = true := by decide +kernel
  have rejected : (sending [newrelic]).1.isOk = false := rfl
  have modified : (sending [traced]).2.context.argument =
      some (.obj [("_meta", .obj [("datadog", .obj [("x-datadog-trace-id", .str "1")])])]) := rfl
  refine ⟨plain, rejected, fun transparent => ?_, modified, fun transparent => ?_⟩
  · have settled := (transparent.publishes ProducerEngine.accepting ProducerEngine.epoch "orders"
      [] ProducerEngine.idle).settled
    change (sending [newrelic]).1.isOk = (sending []).1.isOk at settled
    rw [plain, rejected] at settled
    cases settled
  · have kept := (transparent.publishes ProducerEngine.accepting ProducerEngine.epoch "orders"
      [] ProducerEngine.idle).kept
    change (sending [traced]).2.context.argument = some (.obj []) at kept
    rw [modified] at kept
    cases kept

end ShippedMiddleware

end Steveo
