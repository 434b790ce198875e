import Mathlib.Data.List.Induction
import Steveo.Workflow.Topics

/-!
# Publishing by name

An instance maps names to topics and topics to elements.  Tasks, workflows, steps and topics can be
declared in any order and removed again; this file determines when a message that is published
under a name still goes to the element registered last under that name.
-/

namespace Steveo

namespace Publishing

variable {η : Type}

/-! ## The instance -/

/-- The names under which something is found on a task besides the fields of an element. -/
def taskMembers : List String := ["config", "registry", "producer", "publish"]

/-- The element that the declaration of a task or a workflow registers. -/
def declared (configuration : TopicConfiguration) (host : Host) (name : String) (subscribe : η)
    (options : TaskOptions) (members : List String := taskMembers) : RegistryElem η :=
  let topic := formatTopicName host.toUpperCase name
    { queueName := options.queueName
      queuePrefix := some configuration.queuePrefix
      upperCaseNames := some configuration.upperCaseNames }
  { name, topic, subscribe, options, members }

/-- Declare and register a task. -/
def task (configuration : TopicConfiguration) (host : Host) (registry : Registry η) (name : String)
    (callback : η) (options : TaskOptions) : Registry η :=
  registry.addNewTask (declared configuration host name callback options)

/-- A name in the queue naming convention, with the suffix of a first-in-first-out queue kept. -/
def getTopicName (configuration : TopicConfiguration) (host : Host) (name : String) : String :=
  let hasFifoSuffix := decide (".fifo".toList <:+ name.toList)
  let baseName :=
    if hasFifoSuffix then String.ofList (name.toList.take (name.toList.length - 5)) else name
  let withOrWithoutPrefix :=
    if configuration.queuePrefix = "" then baseName
    else configuration.queuePrefix ++ "_" ++ baseName
  let uppercased :=
    if configuration.upperCaseNames then host.toUpperCase withOrWithoutPrefix
    else withOrWithoutPrefix
  if hasFifoSuffix then uppercased ++ ".fifo" else uppercased

/-- The topic that is registered for a name. -/
def registeredTopic (configuration : TopicConfiguration) (host : Host) (name : String)
    (topic : Option String) : String :=
  match topic with
  | some topic => if topic = "" then getTopicName configuration host name else topic
  | none => getTopicName configuration host name

/-- Register a topic. -/
def registerTopic (configuration : TopicConfiguration) (host : Host) (registry : Registry η)
    (name : String) (topic : Option String) : Registry η :=
  registry.addTopic name (some (registeredTopic configuration host name topic))

/-- Publish a payload under a name; `send` is the producer. -/
def publish {ρ : Type} (send : String → Fields → Option Fields → Except String ρ)
    (registry : Registry η) (name : String) (payload : Fields) (options : Option Fields) :
    Except String ρ := do
  let topic ← registry.getTopic name
  send topic payload options

/-! ## Runs of declarations -/

/-- A call on an instance or its registry, or on a workflow that it declared. -/
inductive Call (η : Type)
  | task (name : String) (callback : η) (options : TaskOptions)
  | flow (name : String) (subscribe : η) (options : WorkflowOptions)
  | next (workflow : Workflow) (subscribe : η) (step : Step)
  | registerTopic (name : String) (topic : Option String)
  | addTopic (name : String) (topic : Option String)
  | removeTask (element : RegistryElem η)

/-- The registry after a call; a declaration that throws leaves it as it was. -/
def Call.apply (configuration : TopicConfiguration) (host : Host) (registry : Registry η) :
    Call η → Registry η
  | .task name callback options => Publishing.task configuration host registry name callback options
  | .flow name subscribe options =>
      match Workflow.flow configuration host subscribe registry name options with
      | .ok declared => declared.1
      | .error _ => registry
  | .next workflow subscribe step => (Workflow.next subscribe (registry, workflow) step).1
  | .registerTopic name topic => Publishing.registerTopic configuration host registry name topic
  | .addTopic name topic => registry.addTopic name topic
  | .removeTask element => registry.removeTask element

/-- The registry after a sequence of calls on a new instance. -/
def registryAfter (configuration : TopicConfiguration) (host : Host) (calls : List (Call η)) :
    Registry η :=
  calls.foldl (Call.apply configuration host) .empty

/-- A message published under the name goes to a topic that has the element as its handler. -/
def Reaches (registry : Registry η) (name : String) (element : RegistryElem η) : Prop :=
  ∃ topic,
    (∀ {ρ : Type} (send : String → Fields → Option Fields → Except String ρ) payload options,
      publish send registry name payload options = send topic payload options) ∧
    registry.getTask topic = some (.own element)

/-! ## Edits of the registry -/

/-- What a call does to the registry. -/
inductive Edit (η : Type)
  | register (element : RegistryElem η)
  | assign (name topic : String)
  | remove (element : RegistryElem η)

namespace Edit

/-- The registry after an edit. -/
def apply (registry : Registry η) : Edit η → Registry η
  | register element => registry.addNewTask element
  | assign name topic => registry.addTopic name (some topic)
  | remove element => registry.removeTask element

/-- The edit registers or removes an element of the name. -/
def Concerns (name : String) : Edit η → Prop
  | register element => element.name = name
  | assign _ _ => False
  | remove element => element.name = name

/-- The edit registers or removes an element of the topic. -/
def Displaces (topic : String) : Edit η → Prop
  | register element => element.topic = topic
  | assign _ _ => False
  | remove element => element.topic = topic ∧ topic ≠ "__proto__"

end Edit

/-- The edit that a call makes; a workflow without a name is refused. -/
def Call.edit (configuration : TopicConfiguration) (host : Host) : Call η → Option (Edit η)
  | .task name callback options =>
      some (.register (declared configuration host name callback options))
  | .flow name subscribe options =>
      if name = "" then none
      else some (.register
        (declared configuration host name subscribe options.toTaskOptions Workflow.members))
  | .next workflow subscribe step =>
      some (.register
        { name := workflow.formatStepMessage step.name
          topic := workflow.stepTopic step
          subscribe
          options := step.options })
  | .registerTopic name topic =>
      some (.assign name (registeredTopic configuration host name topic))
  | .addTopic name topic => some (.assign name (topic.getD name))
  | .removeTask element => some (.remove element)

/-- The edits made by a sequence of calls. -/
def edits (configuration : TopicConfiguration) (host : Host) (calls : List (Call η)) :
    List (Edit η) :=
  calls.filterMap (Call.edit configuration host)

/-- The element registered last under a name, unless it was removed since. -/
def mostRecent (name : String) : List (Edit η) → Option (RegistryElem η) :=
  List.foldl (fun current edit =>
    match edit with
    | .register element => if element.name = name then some element else current
    | .assign _ _ => current
    | .remove element => if element.name = name then none else current) none

/-- The topic that a name has after some edits that do not concern it. -/
def routedTopic (name : String) : String → List (Edit η) → String :=
  List.foldl fun current edit =>
    match edit with
    | .assign assigned topic => if assigned = name then topic else current
    | .register _ | .remove _ => current

/-- The edits since an element was registered leave its topic and the way to it alone. -/
structure Undisturbed (element : RegistryElem η) (later : List (Edit η)) : Prop where
  named : element.topic ≠ ""
  routed : routedTopic element.name element.topic later = element.topic
  kept : ∀ edit ∈ later, ¬ edit.Displaces element.topic

/-- Every name that is registered and not removed reaches its most recent element. -/
def AllReach (configuration : TopicConfiguration) (host : Host) (calls : List (Call η)) : Prop :=
  ∀ name element, mostRecent name (edits configuration host calls) = some element →
    Reaches (registryAfter configuration host calls) name element

theorem Call.apply_eq_edit (configuration : TopicConfiguration) (host : Host)
    (registry : Registry η) (call : Call η) :
    call.apply configuration host registry =
      (call.edit configuration host).elim registry fun edit => edit.apply registry := by
  cases call with
  | task name callback options => rfl
  | flow name subscribe options =>
      by_cases unnamed : name = ""
      · simp [apply, Call.edit, Workflow.flow, unnamed]
      · simp [apply, Call.edit, Workflow.flow, unnamed, Edit.apply, declared]
  | next workflow subscribe step => rfl
  | registerTopic name topic => rfl
  | addTopic name topic => rfl
  | removeTask element => rfl

theorem registryAfter_eq_edits (configuration : TopicConfiguration) (host : Host)
    (calls : List (Call η)) :
    registryAfter configuration host calls =
      (edits configuration host calls).foldl Edit.apply .empty := by
  rw [registryAfter, edits, List.foldl_filterMap]
  congr 1
  funext registry call
  rw [Call.apply_eq_edit]
  cases call.edit configuration host with
  | none => rfl
  | some edit => rfl

theorem publish_eq_send_iff {registry : Registry η} {name topic : String} :
    (∀ {ρ : Type} (send : String → Fields → Option Fields → Except String ρ) payload options,
      publish send registry name payload options = send topic payload options) ↔
      registry.getTopic name = .ok topic := by
  constructor
  · intro published
    have echoed := published (fun topic _ _ => .ok topic) [] none
    rw [publish] at echoed
    cases found : registry.getTopic name with
    | error message => simp [found, bind, Except.bind] at echoed
    | ok value => simpa [found, bind, Except.bind] using echoed
  · intro found ρ send payload options
    rw [publish, found]
    rfl

/-- An element that a topic has as its handler was registered under that topic. -/
def Indexed (registry : Registry η) : Prop :=
  ∀ topic element, registry.registeredTasks.get topic = some element → element.topic = topic

theorem indexed_apply {registry : Registry η} (indexed : Indexed registry) (edit : Edit η) :
    Indexed (edit.apply registry) := by
  intro topic element found
  cases edit with
  | register task =>
      rw [Edit.apply, Registry.registeredTasks_addNewTask] at found
      split at found
      · rename_i same
        obtain rfl := Option.some.inj found
        exact same.symm
      · exact indexed topic element found
  | assign name assigned => exact indexed topic element found
  | remove task =>
      rw [Edit.apply, Registry.registeredTasks_removeTask] at found
      split at found
      · contradiction
      · exact indexed topic element found

theorem indexed_edits (edits : List (Edit η)) : Indexed (edits.foldl Edit.apply .empty) := by
  induction edits using List.reverseRecOn with
  | nil =>
      intro topic element found
      exact absurd found (by simp [Registry.empty])
  | append_singleton edits edit induction =>
      rw [List.foldl_append]
      exact indexed_apply induction edit

/-- An edit that does not concern the name of an element keeps it as the handler of its topic
unless it displaces that topic. -/
theorem registered_apply_iff {element : RegistryElem η} {edit : Edit η}
    (unconcerned : ¬ edit.Concerns element.name) (registry : Registry η) :
    (edit.apply registry).registeredTasks.get element.topic = some element ↔
      registry.registeredTasks.get element.topic = some element ∧
        ¬ edit.Displaces element.topic := by
  cases edit with
  | register task =>
      rw [Edit.apply, Registry.registeredTasks_addNewTask]
      by_cases same : element.topic = task.topic
      · have other : task ≠ element := by
          rintro rfl
          exact unconcerned rfl
        simp [Edit.Displaces, same, other]
      · simp [Edit.Displaces, same, eq_comm]
  | assign name topic => simp [Edit.apply, Edit.Displaces]
  | remove task =>
      rw [Edit.apply, Registry.registeredTasks_removeTask]
      by_cases displaced : element.topic = task.topic ∧ element.topic ≠ "__proto__"
      · simp [Edit.Displaces, displaced.1.symm, displaced.2]
      · rw [if_neg displaced, Edit.Displaces, eq_comm (a := task.topic)]
        exact (and_iff_left displaced).symm

theorem registered_edits_iff {element : RegistryElem η} {later : List (Edit η)}
    (unconcerned : ∀ edit ∈ later, ¬ edit.Concerns element.name) (registry : Registry η) :
    (later.foldl Edit.apply registry).registeredTasks.get element.topic = some element ↔
      registry.registeredTasks.get element.topic = some element ∧
        ∀ edit ∈ later, ¬ edit.Displaces element.topic := by
  induction later generalizing registry with
  | nil => simp
  | cons edit later induction =>
      obtain ⟨first, rest⟩ := List.forall_mem_cons.mp unconcerned
      rw [List.foldl_cons, induction rest, registered_apply_iff first, List.forall_mem_cons,
        and_assoc]

/-- Edits that do not concern a name change its topic only by assigning one. -/
theorem items_edits {name topic : String} {later : List (Edit η)}
    (unconcerned : ∀ edit ∈ later, ¬ edit.Concerns name) {registry : Registry η}
    (routed : registry.items.get name = some topic) :
    (later.foldl Edit.apply registry).items.get name = some (routedTopic name topic later) := by
  induction later generalizing registry topic with
  | nil => exact routed
  | cons edit later induction =>
      obtain ⟨first, rest⟩ := List.forall_mem_cons.mp unconcerned
      rw [List.foldl_cons, routedTopic, List.foldl_cons]
      refine induction rest ?_
      cases edit with
      | register element =>
          have other : name ≠ element.name := fun same => first same.symm
          simpa [Edit.apply, Registry.addNewTask, other] using routed
      | assign assigned replacement =>
          by_cases same : name = assigned
          · simp [Edit.apply, Registry.addTopic, same]
          · simp [Edit.apply, Registry.addTopic, same, Ne.symm same, routed]
      | remove element =>
          have other : name ≠ element.name := fun same => first same.symm
          simpa [Edit.apply, Registry.removeTask, other] using routed

theorem mostRecent_register {name : String} (edits : List (Edit η)) {element : RegistryElem η}
    (named : element.name = name) :
    mostRecent name (edits ++ [.register element]) = some element := by
  simp [mostRecent, named]

theorem mostRecent_unconcerned {name : String} (edits : List (Edit η)) {edit : Edit η}
    (unconcerned : ¬ edit.Concerns name) :
    mostRecent name (edits ++ [edit]) = mostRecent name edits := by
  cases edit with
  | register element =>
      have other : element.name ≠ name := unconcerned
      simp [mostRecent, other]
  | assign assigned topic => simp [mostRecent]
  | remove element =>
      have other : element.name ≠ name := unconcerned
      simp [mostRecent, other]

/-- An edit that concerns a name registers the element that is then its most recent one. -/
theorem eq_register_of_mostRecent {name : String} {edits : List (Edit η)} {edit : Edit η}
    {element : RegistryElem η} (concerned : edit.Concerns name)
    (recent : mostRecent name (edits ++ [edit]) = some element) :
    edit = .register element ∧ element.name = name := by
  cases edit with
  | register task =>
      rw [mostRecent_register edits concerned] at recent
      obtain rfl := Option.some.inj recent
      exact ⟨rfl, concerned⟩
  | assign assigned topic => exact concerned.elim
  | remove task =>
      have same : task.name = name := concerned
      simp [mostRecent, same] at recent

/-- The most recent element of a name comes from the last edit that concerns the name. -/
theorem mostRecent_eq_some_iff {name : String} {edits : List (Edit η)} {element : RegistryElem η} :
    mostRecent name edits = some element ↔
      ∃ earlier later, edits = earlier ++ .register element :: later ∧ element.name = name ∧
        ∀ edit ∈ later, ¬ edit.Concerns name := by
  induction edits using List.reverseRecOn with
  | nil => simp [mostRecent]
  | append_singleton edits edit induction =>
      by_cases concerned : edit.Concerns name
      · constructor
        · intro recent
          obtain ⟨rfl, named⟩ := eq_register_of_mostRecent concerned recent
          exact ⟨edits, [], rfl, named, by simp⟩
        · rintro ⟨earlier, later, split, named, unconcerned⟩
          rcases List.eq_nil_or_concat later with rfl | ⟨before, final, rfl⟩
          · rw [split]
            exact mostRecent_register earlier named
          · rw [List.concat_eq_append, ← List.cons_append, ← List.append_assoc] at split
            obtain ⟨-, same⟩ := List.append_inj' split rfl
            obtain rfl := List.singleton_inj.mp same
            exact absurd concerned (unconcerned edit (by simp))
      · rw [mostRecent_unconcerned edits concerned, induction]
        constructor
        · rintro ⟨earlier, later, rfl, named, unconcerned⟩
          refine ⟨earlier, later ++ [edit], by simp, named, fun other member => ?_⟩
          rcases List.mem_append.mp member with member | member
          · exact unconcerned other member
          · rw [List.mem_singleton.mp member]
            exact concerned
        · rintro ⟨earlier, later, split, named, unconcerned⟩
          rcases List.eq_nil_or_concat later with rfl | ⟨before, final, rfl⟩
          · obtain ⟨-, same⟩ := List.append_inj' split rfl
            obtain rfl := List.singleton_inj.mp same
            exact absurd named concerned
          · rw [List.concat_eq_append, ← List.cons_append, ← List.append_assoc] at split
            obtain ⟨rfl, -⟩ := List.append_inj' split rfl
            exact ⟨earlier, before, rfl, named, fun other member =>
              unconcerned other (by simp [member])⟩

/-- Since its registration nothing has happened to an element if and only if messages published
under its name reach it. -/
theorem reaches_iff_undisturbed {earlier later : List (Edit η)} {element : RegistryElem η}
    (unconcerned : ∀ edit ∈ later, ¬ edit.Concerns element.name) :
    Reaches ((earlier ++ .register element :: later).foldl Edit.apply .empty) element.name
      element ↔ Undisturbed element later := by
  have indexed := indexed_edits (earlier ++ .register element :: later)
  set registered := (earlier.foldl Edit.apply .empty).addNewTask element with registration
  have final : (earlier ++ .register element :: later).foldl Edit.apply .empty =
      later.foldl Edit.apply registered := by
    rw [List.foldl_append, List.foldl_cons]
    rfl
  rw [final] at indexed ⊢
  have first : registered.items.get element.name = some element.topic := by
    simp [registration, Registry.addNewTask]
  have routed := items_edits unconcerned first
  have handled := registered_edits_iff unconcerned registered
  rw [registration, Registry.registeredTasks_addNewTask, if_pos rfl, ← registration,
    eq_self, true_and] at handled
  constructor
  · rintro ⟨topic, published, found⟩
    rw [Registry.getTask_eq_own] at found
    obtain rfl := indexed topic element found
    obtain ⟨item, named⟩ := Registry.getTopic_eq_ok.mp (publish_eq_send_iff.mp published)
    rw [routed, Option.some.injEq] at item
    exact ⟨named, item, handled.mp found⟩
  · intro undisturbed
    refine ⟨element.topic, publish_eq_send_iff.mpr (Registry.getTopic_eq_ok.mpr ⟨?_, ?_⟩),
      Registry.getTask_eq_own.mpr (handled.mpr undisturbed.kept)⟩
    · rw [routed, undisturbed.routed]
    · exact undisturbed.named

/-- Every name reaches its most recent element if and only if, since that element was registered
under a nonempty topic, no other name was registered under the topic, no element of the topic was
removed, and the name was not mapped to another topic. -/
theorem allReach_iff_undisturbed (configuration : TopicConfiguration) (host : Host)
    (calls : List (Call η)) :
    AllReach configuration host calls ↔
      ∀ earlier element later,
        edits configuration host calls = earlier ++ .register element :: later →
          (∀ edit ∈ later, ¬ edit.Concerns element.name) → Undisturbed element later := by
  constructor
  · intro reach earlier element later split unconcerned
    have reached := reach element.name element
      (mostRecent_eq_some_iff.mpr ⟨earlier, later, split, rfl, unconcerned⟩)
    rw [registryAfter_eq_edits, split] at reached
    exact (reaches_iff_undisturbed unconcerned).mp reached
  · intro undisturbed name element recent
    obtain ⟨earlier, later, split, rfl, unconcerned⟩ := mostRecent_eq_some_iff.mp recent
    rw [registryAfter_eq_edits, split]
    exact (reaches_iff_undisturbed unconcerned).mpr (undisturbed earlier element later split
      unconcerned)

/-- The declaration of two tasks that share a queue. -/
def sharedQueue : List (Call Nat) :=
  [.task "orders" 1 { queueName := some "shared" },
    .task "invoices" 2 { queueName := some "shared" }]

/-- Declaring a second task on a queue takes the queue from the first one. -/
theorem sharedQueue_not_allReach :
    ¬ AllReach { upperCaseNames := false } .accepting sharedQueue := by
  intro reach
  obtain ⟨topic, published, found⟩ := reach "orders" _ rfl
  have routed : topic = "shared" :=
    (Except.ok.inj (published (fun topic _ _ => .ok topic) [] none)).symm
  rw [routed, Registry.getTask_eq_own] at found
  have taken : (2 : Nat) = 1 := congrArg RegistryElem.subscribe (Option.some.inj found)
  contradiction

end Publishing

end Steveo
