import Janus.Conc.Prog
import Janus.Conc.Pool
import Janus.Redis.Table
import Janus.Session.Store
import Janus.Session.Service
import Janus.Session.Proof.Frame
import Janus.Session.Proof.Revoke
import Janus.Session.Proof.Requests
import Janus.Session.Proof.Rotation
import Janus.Session.Proof.Theft
import Janus.Auth.PermCache
import Janus.Auth.Proof.PermCache
import Janus.Gateway.Cache
import Janus.Gateway.Proof.Cache
import Janus.Conc.Raising
import Janus.Gateway.Capabilities
import Janus.Gateway.ResponseCache
import Janus.Gateway.RateLimit
import Janus.Gateway.Context
import Janus.Gateway.Finalize
import Janus.Gateway.Endpoints
import Janus.Conc.Triple
import Janus.Gateway.Proof.Accounts
import Janus.Gateway.Proof.Reservations
import Janus.Gateway.Proof.Slots
import Janus.Gateway.Proof.Release
import Janus.Gateway.Proof.Streams
import Janus.Limit.Meter
import Janus.Limit.Window
import Janus.Gateway.Proof.Bucket
import Janus.Gateway.Proof.Window
import Janus.Gateway.Proof.LiveStreams
import Janus.Gateway.Proof.Ledger
import Janus.Gateway.Quota
import Janus.Gateway.Proof.Counters
import Janus.Conc.Clock
import Janus.Gateway.Proof.Expiry
import Janus.Gateway.Events
import Janus.Gateway.Proof.Queue
import Janus.Gateway.Proof.Items
import Janus.Gateway.Proof.Attempts
import Janus.Gateway.Proof.Outbox
import Janus.Gateway.Proof.Billing
import Janus.Gateway.Proof.Poison
import Janus.Gateway.QuotaCheck
import Janus.Gateway.Proof.QuotaCheck
import Janus.Snowflake.Generator
import Janus.Snowflake.Proof.Generator
import Janus.Snowflake.Proof.Lease
import Janus.Snowflake.Fleet
import Janus.Snowflake.Proof.Fleet
import Janus.Session.Proof.Index
import Janus.Session.Proof.Listing
import Janus.Auth.Throttle
import Janus.Auth.Proof.Throttle
import Janus.Admin.Departments
import Janus.Admin.Proof.DepartmentOrder
import Janus.Admin.Proof.Departments
import Janus.Admin.Proof.DepartmentRuns
import Janus.Gateway.Sse
import Janus.Gateway.Proof.Chunks
import Janus.Python.Alike
import Janus.Gateway.Proof.GeminiUsage
import Janus.Gateway.Proof.Native
import Janus.Gateway.Proof.Consumption
import Janus.Gateway.Proof.QuotaFaults
import Janus.Gateway.Settlement
import Janus.Gateway.Proof.Settlement
import Janus.Gateway.Proof.Refinalize
import Janus.Gateway.Proof.DeadLetters
import Janus.Gateway.Proof.Denial
import Janus.Gateway.Proof.RetryAfter
import Janus.Gateway.Proof.Emergency
import Janus.Access.Grants
import Janus.Admin.Rbac
import Janus.Admin.Menus
import Janus.Admin.Roles
import Janus.Admin.Users
import Janus.Core.ClientIp
import Janus.Core.Proof.ClientIp
import Janus.Snowflake.Proof.Rollback
import Janus.Gateway.Proof.RouterManager
import Janus.Db.Proof.Session
import Janus.ChannelHealth.RedisStore
import Janus.ChannelHealth.Service
import Janus.ChannelHealth.Tasks
import Janus.ChannelHealth.Proof.Recovery
import Janus.ChannelHealth.Proof.ProbeLock
import Janus.Admin.Proof.MenuParent
import Janus.Admin.TreeList
import Janus.Admin.Proof.TreeList
import Janus.Admin.Solo
import Janus.Sql.Each
import Janus.Admin.Proof.Solo
import Janus.Admin.Proof.Batch
import Janus.Conc.Adds
import Janus.Gateway.Proof.Downgrade
import Janus.Admin.Operations
import Janus.Admin.Proof.Codes
import Janus.Admin.Proof.Changes
import Janus.Admin.Proof.Invalidation
import Janus.Admin.Proof.Escalation
import Janus.Gateway.Proof.QuotaKey
import Janus.Cache.Settled
import Janus.Auth.Proof.Settled
import Janus.Admin.Proof.Superadmins
import Janus.Admin.Proof.Freshness
import Janus.Sql.Index
import Janus.Core.ChannelCrypto
import Janus.GatewayAdmin.Tables
import Janus.GatewayAdmin.Catalog
import Janus.GatewayAdmin.Grants
import Janus.GatewayAdmin.Requests
import Janus.GatewayAdmin.Proof.Changes
import Janus.Gateway.Proof.Settled
import Janus.GatewayAdmin.Proof.Invalidation
import Janus.GatewayAdmin.Proof.Freshness
import Janus.GatewayAdmin.Proof.Stored
import Janus.Python.Dict
import Janus.Gateway.RouterFactory
import Janus.Gateway.Proof.RouterFactory
import Janus.GatewayAdmin.Proof.RouterConfig
import Janus.Core.Proof.ChannelCrypto
import Janus.GatewayAdmin.Proof.UpstreamKeys
import Janus.Text.Tokens
import Janus.Python.Json
import Janus.Python.Proof.Json
import Janus.Gateway.ResponseStore
import Janus.Gateway.Proof.ResponseStore
