import YappaCore.Lib.Machine
import YappaCore.Lib.Paging
import YappaCore.Lib.Params
import YappaCore.Lib.Prog
import YappaCore.Lib.Record
import YappaCore.Lib.RefCount
import YappaCore.Lib.Sql
import YappaCore.Lib.Table
import YappaCore.Protocol
import YappaCore.Protocol.Participants
import YappaCore.Db
import YappaCore.Db.Batcher
import YappaCore.Db.Groups
import YappaCore.Db.Migrations
import YappaCore.Kafka.Consumer
import YappaCore.Kafka.Timing
import YappaCore.Limits
import YappaCore.Limits.Calls
import YappaCore.Limits.Isolation
import YappaCore.Server.Session
import YappaCore.Connection
import YappaCore.Connection.Flat
import YappaCore.Connection.Removal
import YappaCore.Connection.Levels
import YappaCore.Redis
import YappaCore.Redis.Listener
import YappaCore.Redis.Payloads
import YappaCore.Server.Ws
import YappaCore.Server.DirectMessage
import YappaCore.Server.Cluster
import YappaCore.Server.Delivery
import YappaCore.Server.Membership
import YappaCore.Server.LastCommand
import YappaCore.Server.Enrolment
import YappaCore.Server.Frames
import YappaCore.Server.Create
import YappaCore.Server.Agreement
import YappaCore.Server.TenantRows
import YappaCore.Server.Conversations
import YappaCore.Server.Groups
import YappaCore.Server.Durability
import YappaCore.Server.Listing
import YappaCore.Server.Persistence
import YappaCore.Server.History
import YappaCore.Server.Injection
import YappaCore.Server.HistoryPages
import YappaCore.Server.Persisted
import YappaCore.Server.Rest
import YappaCore.Server.Restart
import YappaCore.Server.Keys
import YappaCore.Server.Tenancy
import YappaCore.Server.HistoryWire
import YappaCore.Server.DmHistory
import YappaCore.Server.Broadcast
import YappaCore.Db.Startup
import YappaCore.Server.Startup
import YappaCore.Server.Handshake
import YappaCore.Server.Heartbeat
import YappaCore.Server.InOrder
import YappaCore.Server.EndToEnd
import YappaCore.Server.Wire
