import Steveo.Messaging.Publishing

/-!
# Topic names on both sides

A service that only publishes registers a topic, and a service that consumes declares a task.  Each
side formats the name in its own way; this file says when they come to the same topic.
-/

namespace Steveo

namespace TopicNames

/-- What upper-casing does to texts: character by character, and to the letters of the suffix. -/
structure UpperCases (toUpperCase : String → String) : Prop where
  append : ∀ front back, toUpperCase (front ++ back) = toUpperCase front ++ toUpperCase back
  fifo : toUpperCase ".fifo" = ".FIFO"

/-- A name with the suffix of a first-in-first-out queue. -/
def HasFifoSuffix (name : String) : Prop := ".fifo".toList <:+ name.toList

/-- A name with the prefix of the configuration. -/
def prefixed (configuration : TopicConfiguration) (name : String) : String :=
  if configuration.queuePrefix = "" then name else configuration.queuePrefix ++ "_" ++ name

/-- A prefixed name in the case of the configuration. -/
def cased (configuration : TopicConfiguration) (toUpperCase : String → String) (name : String) :
    String :=
  if configuration.upperCaseNames then toUpperCase (prefixed configuration name)
  else prefixed configuration name

section

variable {configuration : TopicConfiguration} {host : Host} {name : String}

/-- What follows a name follows the prefixed name. -/
theorem prefixed_append (configuration : TopicConfiguration) (name rest : String) :
    prefixed configuration (name ++ rest) = prefixed configuration name ++ rest := by
  unfold prefixed
  by_cases empty : configuration.queuePrefix = ""
  · simp only [empty, if_true]
  · simp only [empty, if_false, String.append_assoc]

/-- The topic of a task without a queue name is the prefixed name in the case of the
configuration. -/
theorem declared_topic {η : Type} (callback : η) {options : TaskOptions}
    (unnamed : options.queueName = none) :
    (Publishing.declared configuration host name callback options).topic =
      cased configuration host.toUpperCase name := by
  simp only [Publishing.declared, formatTopicName, unnamed, Option.getD_none]
  rfl

/-- The suffix is set aside before a name is formatted, and put back as it was. -/
theorem getTopicName_fifo (configuration : TopicConfiguration) (host : Host) (base : String) :
    Publishing.getTopicName configuration host (base ++ ".fifo") =
      cased configuration host.toUpperCase base ++ ".fifo" := by
  have found : decide (".fifo".toList <:+ (base ++ ".fifo").toList) = true :=
    decide_eq_true ⟨base.toList, String.toList_append.symm⟩
  have taken : (base ++ ".fifo").toList.take ((base ++ ".fifo").toList.length - 5) =
      base.toList := by
    simp
  simp only [Publishing.getTopicName, found, taken, if_true, String.ofList_toList]
  rfl

theorem getTopicName_plain (plain : ¬ HasFifoSuffix name) :
    Publishing.getTopicName configuration host name =
      cased configuration host.toUpperCase name := by
  have missing : decide (".fifo".toList <:+ name.toList) = false := decide_eq_false plain
  simp only [Publishing.getTopicName, missing]
  rfl

/-- The topic that is registered for a name is the topic of the task of that name exactly where
names are not upper-cased or the name has no suffix of a first-in-first-out queue. -/
theorem registeredTopic_eq_iff {η : Type} (upper : UpperCases host.toUpperCase) (callback : η)
    {options : TaskOptions} (unnamed : options.queueName = none) :
    Publishing.registeredTopic configuration host name none =
        (Publishing.declared configuration host name callback options).topic ↔
      ¬ (configuration.upperCaseNames = true ∧ HasFifoSuffix name) := by
  rw [declared_topic callback unnamed, Publishing.registeredTopic]
  by_cases suffixed : HasFifoSuffix name
  · obtain ⟨front, whole⟩ := suffixed
    have split : name = String.ofList front ++ ".fifo" := by
      rw [← String.toList_inj, ← whole]
      simp
    rw [and_iff_left ⟨front, whole⟩, split, getTopicName_fifo, cased, cased, prefixed_append]
    -- Upper-casing changes the suffix too, and everything else alike on both sides.
    cases configuration.upperCaseNames with
    | false => simp
    | true => simp [upper.append, upper.fifo]
  · simp [getTopicName_plain suffixed, suffixed]

end

/-! ## An upper-cased first-in-first-out queue -/

theorem upperCases_asciiHost : UpperCases Workflow.asciiHost.toUpperCase where
  append front back := by simp [Workflow.asciiHost]
  fifo := by decide +kernel

/-- Upper-cased names with a prefix. -/
def upperCased : TopicConfiguration where
  queuePrefix := "prod"

/-- The registered topic keeps the suffix in lower case, the topic of the task does not. -/
theorem fifo_topics_differ :
    UpperCases Workflow.asciiHost.toUpperCase ∧
      Publishing.registeredTopic upperCased Workflow.asciiHost "order.fifo" none =
        "PROD_ORDER.fifo" ∧
      (Publishing.declared upperCased Workflow.asciiHost "order.fifo" () {}).topic =
        "PROD_ORDER.FIFO" :=
  ⟨upperCases_asciiHost, by decide +kernel, by decide +kernel⟩

/-- Without the suffix the two topics are the same. -/
theorem plain_topics_agree :
    Publishing.registeredTopic upperCased Workflow.asciiHost "order" none =
      (Publishing.declared upperCased Workflow.asciiHost "order" () {}).topic :=
  (registeredTopic_eq_iff upperCases_asciiHost () rfl).mpr
    (not_and_of_not_right _ (show ¬ ".fifo".toList <:+ "order".toList by decide))

end TopicNames

end Steveo
