import Steveo.Library.Json

/-!
# The configuration of an instance

An instance does not keep the configuration that it is given.  It builds its own from some of the
given properties and from the environment, and everything else reads that one.
-/

namespace Steveo

/-- What is read outside the given configuration, and the library that merges objects. -/
structure Environment where
  /-- The variable `QUEUE_PREFIX`. -/
  queuePrefix : Option String := none
  /-- The variable `CONSUMER_GROUP_PREFIX`. -/
  consumerGroupPrefix : Option String := none
  /-- The recursive merge of the second object into a copy of the first. -/
  merge : Fields → Fields → Fields
  /-- The string for a value. -/
  print : Json → String
  /-- The integer with which a string begins. -/
  parseInt : String → Option Int

/-- The integer that a value spells. -/
def safeParseInt (environment : Environment) (value : Json) (fallback : Int) : Int :=
  if truthy (some value) then (environment.parseInt (environment.print value)).getD fallback
  else fallback

namespace Configuration

/-- The operator `??`. -/
def orElse (value : Option Json) (fallback : Json) : Json :=
  if nullish value then fallback else value.getD fallback

/-- The operator `||`. -/
def orDefault (value : Option Json) (fallback : Json) : Json :=
  if truthy value then value.getD fallback else fallback

/-- The object with the properties that are not `undefined`. -/
def object (properties : List (String × Option Json)) : Fields :=
  properties.filterMap fun property => property.2.map fun value => (property.1, value)

/-- A property behind `?.`. -/
def optional (value : Option Json) (key : String) : Option Json :=
  value.bind fun found => found.get key

/-- The defaults of a Kafka consumer. -/
def kafkaConsumerDefault : Fields :=
  [("global", .obj
      [("socket.keepalive.enable", .bool true), ("enable.auto.commit", .bool false),
        ("group.id", .str "KAFKA_CONSUMERS")]),
    ("topic", .obj [("auto.offset.reset", .str "latest")])]

/-- The defaults of a Kafka producer. -/
def kafkaProducerDefault : Fields := [("global", .obj []), ("topic", .obj [])]

/-- The parameters of every engine. -/
def commonParameters (environment : Environment) (config : Fields) : Fields :=
  object
    [("engine", some (orElse (config.get "engine") (.str "kafka"))),
      ("shuffleQueue", some (.bool (truthy (config.get "shuffleQueue")))),
      ("workerConfig", some (orElse (config.get "workerConfig") (.obj []))),
      ("queuePrefix", some (orElse
        ((environment.queuePrefix.map Json.str).or (config.get "queuePrefix")) (.str ""))),
      ("upperCaseNames", some (orElse (config.get "upperCaseNames") (.bool true))),
      ("middleware", some (orElse (config.get "middleware") (.arr []))),
      ("terminationWaitCount", some (orElse (config.get "terminationWaitCount") (.num 180))),
      ("tasksPath", config.get "tasksPath"),
      ("healthCheckTimeout", config.get "healthCheckTimeout")]

/-- The merged consumer options, with the consumer group prefixed where the environment asks. -/
def kafkaConsumer (environment : Environment) (config : Fields) : Except String Fields :=
  let consumer := environment.merge kafkaConsumerDefault (ownFields (config.get "consumer"))
  match environment.consumerGroupPrefix with
  | none | some "" => .ok consumer
  | some consumerGroupPrefix =>
      match consumer.get "global" with
      | none | some .null => .error "TypeError: Cannot read properties of undefined or null"
      | some found =>
          let group := found.get "group.id"
          if truthy group then
            let prefixed := consumerGroupPrefix ++ "_" ++ environment.print (group.getD .null)
            .ok (consumer.assign "global"
              (some (.obj ((ownFields (some found)).assign "group.id" (some (.str prefixed))))))
          else
            .ok consumer

/-- The parameters of a Kafka instance. -/
def kafkaParameters (environment : Environment) (config : Fields) : Except String Fields :=
  (kafkaConsumer environment config).map fun consumer =>
    object
      [("bootstrapServers", config.get "bootstrapServers"),
        ("securityProtocol", some (orElse (config.get "securityProtocol") (.str "ssl"))),
        ("connectionTimeout", some (orElse (config.get "connectionTimeout") (.num 30000))),
        ("consumer", some (.obj consumer)),
        ("producer", some (.obj
          (environment.merge kafkaProducerDefault (ownFields (config.get "producer"))))),
        ("admin", some (orElse (config.get "admin") (.obj []))),
        ("defaultTopicPartitions", some (orElse (config.get "defaultTopicPartitions") (.num 6))),
        ("defaultTopicReplicationFactor",
          some (orElse (config.get "defaultTopicReplicationFactor") (.num 3))),
        ("batchProcessing", some (.obj
          [("enabled",
              orElse (optional (config.get "batchProcessing") "enabled") (.bool false)),
            ("batchSize",
              orElse (optional (config.get "batchProcessing") "batchSize") (.num 5))])),
        ("concurrency", some (.obj
          [("enabled", orElse (optional (config.get "concurrency") "enabled") (.bool false)),
            ("maxConcurrent",
              orElse (optional (config.get "concurrency") "maxConcurrent") (.num 10))]))]

/-- The parameters of an SQS instance. -/
def sqsParameters (config : Fields) : Fields :=
  object
    [("region", config.get "region"), ("apiVersion", config.get "apiVersion"),
      ("messageRetentionPeriod", config.get "messageRetentionPeriod"),
      ("receiveMessageWaitTimeSeconds", config.get "receiveMessageWaitTimeSeconds"),
      ("credentials", config.get "credentials"),
      ("maxNumberOfMessages", config.get "maxNumberOfMessages"),
      ("visibilityTimeout", config.get "visibilityTimeout"),
      ("waitTimeSeconds", config.get "waitTimeSeconds"), ("endpoint", config.get "endpoint"),
      ("httpOptions", config.get "httpOptions"),
      ("consumerPollInterval", some (orDefault (config.get "consumerPollInterval") (.num 1000)))]

/-- The parameters of a Redis instance. -/
def redisParameters (config : Fields) : Fields :=
  object
    [("redisHost", config.get "redisHost"), ("redisPort", config.get "redisPort"),
      ("visibilityTimeout", some (orDefault (config.get "visibilityTimeout") (.num 604800))),
      ("redisMessageMaxsize", some (orDefault (config.get "redisMessageMaxsize") (.num 65536))),
      ("consumerPollInterval", some (orDefault (config.get "consumerPollInterval") (.num 1000)))]

/-- The configuration that an instance keeps. -/
def getConfig (environment : Environment) (config : Fields) : Except String Fields :=
  let parameters := commonParameters environment config
  match parameters.get "engine" with
  | some (.str "kafka") => (kafkaParameters environment config).map fun own => parameters ++ own
  | some (.str "sqs") => .ok (parameters ++ sqsParameters config)
  | some (.str "redis") => .ok (parameters ++ redisParameters config)
  | _ => .ok parameters

/-! ## What the kept configuration holds -/

theorem get_object_eq_none {properties : List (String × Option Json)} {key : String}
    (other : key ∉ properties.map Prod.fst) : (object properties).get key = none := by
  induction properties with
  | nil => rfl
  | cons property properties induction =>
      obtain ⟨name, value⟩ := property
      rw [List.map_cons, List.mem_cons, not_or] at other
      cases value with
      | none => exact induction other.2
      | some value =>
          change Fields.get ((name, value) :: object properties) key = none
          rw [Fields.get_cons, if_neg other.1]
          exact induction other.2

theorem get_object_cons (name : String) (value : Option Json)
    (properties : List (String × Option Json)) (key : String) :
    (object ((name, value) :: properties)).get key =
      if key = name then value.or ((object properties).get key)
      else (object properties).get key := by
  cases value with
  | none => simp [object]
  | some value =>
      change Fields.get ((name, value) :: object properties) key = _
      rw [Fields.get_cons, Option.some_or]

theorem get_engine (environment : Environment) (config : Fields) :
    (commonParameters environment config).get "engine" =
      some (orElse (config.get "engine") (.str "kafka")) := rfl

/-- Whatever its engine, an instance keeps the common parameters. -/
theorem getConfig_common {environment : Environment} {config kept : Fields} {key : String}
    {value : Json} (built : getConfig environment config = .ok kept)
    (common : (commonParameters environment config).get key = some value) :
    kept.get key = some value := by
  have appended (own : Fields) : (commonParameters environment config ++ own).get key =
      some value := by
    rw [Fields.get_append, common, Option.some_or]
  rw [getConfig] at built
  split at built
  · cases made : kafkaParameters environment config with
    | error thrown => rw [made] at built; cases built
    | ok own =>
        rw [made] at built
        obtain rfl := Except.ok.inj built
        exact appended own
  · obtain rfl := Except.ok.inj built
    exact appended _
  · obtain rfl := Except.ok.inj built
    exact appended _
  · obtain rfl := Except.ok.inj built
    exact common

/-- An SQS instance keeps the parameters of every engine and those of its own. -/
theorem getConfig_sqs (environment : Environment) {config : Fields}
    (sqs : config.get "engine" = some (.str "sqs")) :
    getConfig environment config =
      .ok (commonParameters environment config ++ sqsParameters config) := by
  rw [getConfig, get_engine, sqs]
  rfl

/-- An SQS instance keeps no other properties. -/
theorem get_sqs_eq_none (environment : Environment) (config : Fields) {key : String}
    (common : key ∉ ["engine", "shuffleQueue", "workerConfig", "queuePrefix", "upperCaseNames",
      "middleware", "terminationWaitCount", "tasksPath", "healthCheckTimeout"])
    (own : key ∉ ["region", "apiVersion", "messageRetentionPeriod",
      "receiveMessageWaitTimeSeconds", "credentials", "maxNumberOfMessages", "visibilityTimeout",
      "waitTimeSeconds", "endpoint", "httpOptions", "consumerPollInterval"]) :
    (commonParameters environment config ++ sqsParameters config).get key = none := by
  rw [Fields.get_append, commonParameters, sqsParameters, get_object_eq_none common,
    get_object_eq_none own]
  rfl

/-- A Redis instance keeps the parameters of every engine and those of its own. -/
theorem getConfig_redis (environment : Environment) {config : Fields}
    (redis : config.get "engine" = some (.str "redis")) :
    getConfig environment config =
      .ok (commonParameters environment config ++ redisParameters config) := by
  rw [getConfig, get_engine, redis]
  rfl

/-- A Redis instance has its server from the given configuration. -/
theorem get_redis_server (environment : Environment) (config : Fields) :
    (commonParameters environment config ++ redisParameters config).get "redisHost" =
        config.get "redisHost" ∧
      (commonParameters environment config ++ redisParameters config).get "redisPort" =
        config.get "redisPort" := by
  constructor
  · rw [Fields.get_append, commonParameters, get_object_eq_none (by simp), redisParameters,
      get_object_cons, if_pos rfl, get_object_eq_none (by simp), Option.or_none, Option.none_or]
  · rw [Fields.get_append, commonParameters, get_object_eq_none (by simp), redisParameters,
      get_object_cons, if_neg (by decide), get_object_cons, if_pos rfl,
      get_object_eq_none (by simp), Option.or_none, Option.none_or]

/-- A Redis instance keeps no namespace. -/
theorem get_redis_namespace (environment : Environment) (config : Fields) :
    (commonParameters environment config ++ redisParameters config).get "namespace" = none := by
  rw [Fields.get_append, commonParameters, redisParameters, get_object_eq_none (by simp),
    get_object_eq_none (by simp)]
  rfl

end Configuration

end Steveo
