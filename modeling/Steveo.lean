import Steveo.Library.Execution
import Steveo.Library.Json
import Steveo.Library.Dictionary
import Steveo.Library.Action
import Steveo.Workflow.Repository
import Steveo.Runtime.Registry
import Steveo.Workflow.Engine
import Steveo.Workflow.Handling
import Steveo.Workflow.Delivery
import Steveo.Workflow.Completion
import Steveo.Workflow.Rollback
import Steveo.Workflow.History
import Steveo.Workflow.Redelivery
import Steveo.Workflow.CommitRace
import Steveo.Workflow.Topics
import Steveo.Messaging.Producer
import Steveo.Messaging.Runner
import Steveo.Messaging.Dispatch
import Steveo.Messaging.Envelope
import Steveo.Kafka.Runner
import Steveo.Kafka.Settlement
import Steveo.Kafka.Ownership
import Steveo.Scheduler.Recurrence
import Steveo.Scheduler.Reschedule
import Steveo.Messaging.Publishing
import Steveo.Messaging.Polling
import Steveo.Runtime.Configuration
import Steveo.Library.Log
import Steveo.Messaging.Stopping
import Steveo.Messaging.Commitment
import Steveo.Scheduler.Table
import Steveo.Scheduler.Termination
import Steveo.Workflow.Columns
import Steveo.Scheduler.Maintenance
import Steveo.Scheduler.Recovery
import Steveo.Scheduler.Fleet
import Steveo.Scheduler.Overlap
import Steveo.Scheduler.Retries
import Steveo.Scheduler.Comeback
import Steveo.Scheduler.Isolation
import Steveo.Kafka.BatchCommit
import Steveo.Library.Uuid
import Steveo.Workflow.StorageKey
import Steveo.Messaging.Queues
import Steveo.Scheduler.Agreement
import Steveo.Workflow.Confinement
import Steveo.Workflow.StepResult
import Steveo.Workflow.FailureRecord
import Steveo.Workflow.OrderingGuard
import Steveo.Workflow.Ending
import Steveo.Messaging.Namespaces
import Steveo.Scheduler.TimestampHelper
import Steveo.Scheduler.Startup
import Steveo.Scheduler.Ticking
import Steveo.Scheduler.Dispatch
import Steveo.Scheduler.CustomRestart
import Steveo.Kafka.ConsumeChain
import Steveo.Library.Async
import Steveo.Library.Mapping
import Steveo.Messaging.Batch
import Steveo.Messaging.PoolBalance
import Steveo.Library.Draining
import Steveo.Messaging.BadMessage
import Steveo.Library.Containment
import Steveo.Messaging.Looping
import Steveo.Scheduler.Bookkeeping
import Steveo.Scheduler.RuleOrder
import Steveo.Scheduler.ServerZone
import Steveo.Messaging.QueueCreation
import Steveo.Messaging.TopicNames
import Steveo.Messaging.Middleware
import Steveo.Messaging.Sending
import Steveo.Messaging.Outcomes
import Steveo.Messaging.ShippedMiddleware
import Steveo.Messaging.RedisPublication
import Steveo.Runtime.Shutdown
import Steveo.Library.Simulation
import Steveo.Workflow.Saga
import Steveo.Kafka.Processing
import Steveo.Kafka.Restart
import Steveo.Library.Composition
import Steveo.Messaging.Durability
import Steveo.Scheduler.Claiming
import Steveo.Workflow.Isolation
import Steveo.Kafka.Reporting
import Steveo.Library.Sharing
import Steveo.Messaging.QueueSetup
import Steveo.Messaging.Termination
import Steveo.Library.Focus
import Steveo.Messaging.RedisDelivery
import Steveo.Messaging.SharedAddresses
import Steveo.Library.Lending
import Steveo.Messaging.Pooled
import Steveo.Messaging.PooledShutdown
import Steveo.Kafka.Turns
