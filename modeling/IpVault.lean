import IpVault.Lib.Announce
import IpVault.Lib.Atomic
import IpVault.Lib.Hex
import IpVault.Lib.Interleave
import IpVault.Lib.Prog
import IpVault.Lib.Reach
import IpVault.Lib.Recall
import IpVault.Lib.Runs
import IpVault.Lib.Table
import IpVault.Lib.Text
import IpVault.Lib.Trace
import IpVault.Lib.Twin
import IpVault.Contention
import IpVault.Client.Datasets
import IpVault.Client.PagedCache
import IpVault.Client.Pages
import IpVault.Client.Recovery
import IpVault.Client.Signing
import IpVault.Auth.AtRest
import IpVault.Auth.Canary
import IpVault.Auth.Forwarding
import IpVault.Auth.Ledger
import IpVault.Auth.Mapped
import IpVault.Auth.MasterRace
import IpVault.Auth.Ordering
import IpVault.Auth.RepeatedHeader
import IpVault.Auth.ReplayMemory
import IpVault.Auth.ReplayRace
import IpVault.Auth.SingleUse
import IpVault.Auth.Snapshots
import IpVault.Access.Audit
import IpVault.Access.LateRefusals
import IpVault.Access.NonAmplification
import IpVault.Keys.Absence
import IpVault.Keys.Bindings
import IpVault.Keys.Deletion
import IpVault.Keys.Listing
import IpVault.Keys.Ownership
import IpVault.Keys.Revocation
import IpVault.Keys.Survivors
import IpVault.Records.AddressFilter
import IpVault.Records.Bannable
import IpVault.Records.BatchEvents
import IpVault.Records.BatchOfOne
import IpVault.Records.BatchOrder
import IpVault.Records.Canonical
import IpVault.Records.CreationRace
import IpVault.Records.DeletionClock
import IpVault.Records.ListingAnswer
import IpVault.Records.Pages
import IpVault.Records.Retention
import IpVault.Records.RetryLoop
import IpVault.Records.Spelling
import IpVault.Records.Sync
import IpVault.Records.Thresholds
import IpVault.Records.Tombstones
import IpVault.Records.Visibility
import IpVault.Webhooks.Announcements
import IpVault.Webhooks.Credentials
import IpVault.Webhooks.Chaining
import IpVault.Webhooks.Covered
import IpVault.Webhooks.Modes
import IpVault.Webhooks.Payloads
import IpVault.Webhooks.Privacy
import IpVault.Access.Concurrent
import IpVault.Webhooks.Reach
import IpVault.Webhooks.Retries
import IpVault.Records.Linearized
import IpVault.Webhooks.Migrations
import IpVault.Webhooks.PoolPosts
import IpVault.Webhooks.Shutdown
import IpVault.Front.Restarts
import IpVault.Front.History
import IpVault.Front.Testing
import IpVault.Front.Server
