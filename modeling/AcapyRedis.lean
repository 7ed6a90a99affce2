import AcapyRedis.Threads
import AcapyRedis.Inbound
import AcapyRedis.Commands
import AcapyRedis.Sharding
import AcapyRedis.Sequential
import AcapyRedis.Eviction
import AcapyRedis.Orphans
import AcapyRedis.Failures
import AcapyRedis.Pending
import AcapyRedis.Deliverer
import AcapyRedis.Scales
import AcapyRedis.Retries
import AcapyRedis.Conservation
import AcapyRedis.Attempts
import AcapyRedis.Answers
import AcapyRedis.Routing
import AcapyRedis.Counters
import AcapyRedis.Losses
import AcapyRedis.Owners
import AcapyRedis.Consumption
import AcapyRedis.Base64
import AcapyRedis.Handlers
import AcapyRedis.Counting
import AcapyRedis.Agreement
import AcapyRedis.Responses
import AcapyRedis.Forwarding
import AcapyRedis.Payloads
import AcapyRedis.Survival
import AcapyRedis.Events
import AcapyRedis.Webhooks
import AcapyRedis.Codecs
import AcapyRedis.Rotations
import AcapyRedis.RoundRobin
import AcapyRedis.Reassignment
import AcapyRedis.Spreading
import AcapyRedis.Arrivals
import AcapyRedis.Collisions
import AcapyRedis.Replies
import AcapyRedis.Selections
import AcapyRedis.ApiKeys
import AcapyRedis.Categories
import AcapyRedis.Listening
import AcapyRedis.Metadata
import AcapyRedis.Calendar
import AcapyRedis.Timestamps
import AcapyRedis.JsonText
import AcapyRedis.JsonRoundTrip
import AcapyRedis.JsonAccepts
import AcapyRedis.Wire
import AcapyRedis.Pipeline
import AcapyRedis.Draining
import AcapyRedis.Deployments
import AcapyRedis.Correlation
import AcapyRedis.Handing
import AcapyRedis.Simulations
import AcapyRedis.RawRedis
import AcapyRedis.Representation
import AcapyRedis.Lockstep
import AcapyRedis.Efforts
import AcapyRedis.Settlement
import AcapyRedis.WebhookPosts
import AcapyRedis.Config
import AcapyRedis.HandOver
import AcapyRedis.Outbound
import AcapyRedis.Residue
