import Steveo.Library.Dictionary
import Steveo.Library.Json

/-!
# Topic names and the task registry

The registry maps topics to the elements that handle them and names to topics.  Handlers are of an
arbitrary type, so that they can be object identities or the code that a consumer calls.
-/

namespace Steveo

/-- Options that define how a queue or topic name is formatted. -/
structure QueueFormatOptions where
  /-- Name to be used in place of the given one. -/
  queueName : Option String := none
  /-- Prefix of every name; an empty prefix counts as absent. -/
  queuePrefix : Option String := none
  /-- Whether names are upper-cased. -/
  upperCaseNames : Option Bool := none

/-- The formatted topic name.  Upper-casing is the host's `String.prototype.toUpperCase`. -/
def formatTopicName (toUpperCase : String → String) (name : String)
    (options : QueueFormatOptions) : String :=
  let topicName := options.queueName.getD name
  let prefixed :=
    match options.queuePrefix with
    | some queuePrefix => if queuePrefix = "" then topicName else queuePrefix ++ "_" ++ topicName
    | none => topicName
  if options.upperCaseNames.getD false then toUpperCase prefixed else prefixed

/-- A custom attribute attached to every message of a task. -/
structure Attribute where
  name : String
  dataType : String
  value : String

/-- Options of a task, of a workflow and of a workflow step. -/
structure TaskOptions where
  /-- Attributes sent along with every message. -/
  attributes : List Attribute := []
  /-- Queue to be used instead of one named after the task. -/
  queueName : Option String := none
  /-- Whether a message is deleted only after it has been handled. -/
  waitToCommit : Option Bool := none
  /-- Whether the queue is first-in-first-out. -/
  fifo : Option Bool := none
  /-- Whether messages that cannot be handled move on to a queue of their own. -/
  deadLetterQueue : Option Bool := none
  /-- How often a message is received before it moves on. -/
  maxReceiveCount : Option Nat := none

/-- What the registry keeps about a task, a workflow or a workflow step. -/
structure RegistryElem (η : Type) where
  name : String
  topic : String
  /-- The handler of the messages that arrive on the topic. -/
  subscribe : η
  options : TaskOptions := {}
  /-- What else is found on the element, such as the methods of a task. -/
  members : List String := []

/-- The names under which something is found on an element. -/
def RegistryElem.properties {η : Type} (task : RegistryElem η) : List String :=
  ["name", "topic", "subscribe", "options"] ++ task.members

/-- What is found under a topic: a registered element, or something inherited that has neither
options nor a handler. -/
abbrev Found (η : Type) := Property (RegistryElem η)

/-- The options of what is found. -/
def Found.options {η : Type} : Found η → TaskOptions
  | .own task => task.options
  | .inherited => {}

@[simp] theorem Found.options_own {η : Type} (task : RegistryElem η) :
    Found.options (.own task) = task.options := rfl

@[simp] theorem Found.options_inherited {η : Type} :
    Found.options (.inherited : Found η) = {} := rfl

/-- The task registry. -/
structure Registry (η : Type) where
  /-- Handling elements by topic.  An element under `__proto__` is the prototype of the object. -/
  registeredTasks : Dictionary String (RegistryElem η)
  /-- Topics by task name. -/
  items : Dictionary String String

namespace Registry

variable {η : Type}

/-- The registry of a new instance. -/
def empty : Registry η := ⟨.empty, .empty⟩

/-- Register an element under its name and its topic. -/
def addNewTask (registry : Registry η) (task : RegistryElem η) : Registry η :=
  { registeredTasks := registry.registeredTasks.set task.topic task
    items := registry.items.set task.name task.topic }

/-- `delete` on an object; `__proto__` is inherited, so it is never removed. -/
def deleteProperty (tasks : Dictionary String (RegistryElem η)) (topic : String) :
    Dictionary String (RegistryElem η) :=
  if topic = "__proto__" then tasks else tasks.erase topic

/-- Remove what is registered under the topic and under the name of an element. -/
def removeTask (registry : Registry η) (task : RegistryElem η) : Registry η :=
  { registeredTasks := deleteProperty registry.registeredTasks task.topic
    items := registry.items.erase task.name }

/-- Map a name to a topic without registering an element. -/
def addTopic (registry : Registry η) (name : String) (topic : Option String) : Registry η :=
  { registry with items := registry.items.set name (topic.getD name) }

/-- The topic of a name. -/
def getTopic (registry : Registry η) (name : String) : Except String String :=
  match registry.items.get name with
  | none => .error "Error: Unknown Task"
  | some value => if value = "" then .error "Error: Unknown Task" else .ok value

/-- Whether `registeredTasks` inherits something under a topic: every object does under some
names, and an element that has become the prototype adds its own. -/
def inherits (registry : Registry η) (topic : String) : Bool :=
  decide (topic ∈ OBJECT_PROTOTYPE) ||
    (registry.registeredTasks.get "__proto__").any fun task => task.properties.contains topic

/-- What is found under a topic. -/
def getTask (registry : Registry η) (topic : String) : Option (Found η) :=
  match registry.registeredTasks.get topic with
  | some task => some (.own task)
  | none => if registry.inherits topic then some .inherited else none

/-- Whether an element is registered under a topic. -/
def registers (registry : Registry η) (topic : String) : Bool :=
  (registry.registeredTasks.get topic).isSome

/-- The topics of the registered elements: `Object.keys`, which leaves the prototype out. -/
def getTaskTopics (registry : Registry η) : List String :=
  (registry.registeredTasks.entries.map Prod.fst).filter (· ≠ "__proto__")

@[simp] theorem getTask_eq_own {registry : Registry η} {topic : String}
    {task : RegistryElem η} :
    registry.getTask topic = some (.own task) ↔
      registry.registeredTasks.get topic = some task := by
  rw [getTask]
  cases registry.registeredTasks.get topic with
  | some registered => simp
  | none => cases registry.inherits topic <;> simp

theorem registers_iff {registry : Registry η} {topic : String} :
    registry.registers topic = true ↔ ∃ task, registry.getTask topic = some (.own task) := by
  simp only [getTask_eq_own]
  exact Option.isSome_iff_exists

theorem getTask_addNewTask_self (registry : Registry η) (task : RegistryElem η) :
    (registry.addNewTask task).getTask task.topic = some (.own task) := by
  simp [addNewTask]

@[simp] theorem registeredTasks_addNewTask (registry : Registry η) (task : RegistryElem η)
    (topic : String) :
    (registry.addNewTask task).registeredTasks.get topic =
      if topic = task.topic then some task else registry.registeredTasks.get topic := by
  simp [addNewTask]

@[simp] theorem registeredTasks_removeTask (registry : Registry η) (task : RegistryElem η)
    (topic : String) :
    (registry.removeTask task).registeredTasks.get topic =
      if topic = task.topic ∧ topic ≠ "__proto__" then none
      else registry.registeredTasks.get topic := by
  by_cases inherited : task.topic = "__proto__"
  · by_cases same : topic = task.topic
    · simp [removeTask, deleteProperty, same, inherited]
    · simp [removeTask, deleteProperty, inherited]
  · by_cases same : topic = task.topic
    · simp [removeTask, deleteProperty, same, inherited]
    · simp [removeTask, deleteProperty, same, inherited]

@[simp] theorem registeredTasks_addTopic (registry : Registry η) (name : String)
    (topic : Option String) (other : String) :
    (registry.addTopic name topic).registeredTasks.get other =
      registry.registeredTasks.get other := rfl

theorem getTopic_eq_ok {registry : Registry η} {name topic : String} :
    registry.getTopic name = .ok topic ↔ registry.items.get name = some topic ∧ topic ≠ "" := by
  rw [getTopic]
  cases registry.items.get name with
  | none => simp
  | some value =>
      by_cases blank : value = ""
      · simp [blank]
      · simp only [blank, if_false, Except.ok.injEq, Option.some.injEq]
        exact ⟨fun same => ⟨same, same ▸ blank⟩, And.left⟩

end Registry

end Steveo
