import Logweir.Positions.Accepted
import Logweir.Positions.Selection
import Logweir.Approval.Authorization
import Logweir.Topics.Staged
import Logweir.RunPool.Ceiling
import Logweir.Inventory.Restarts
import Logweir.Runner.OwnLines
import Logweir.Backup.Exclusive
import Logweir.Schemas.Resume
import Logweir.Scorecard.Signable
import Logweir.Core.CheckBinding
import Logweir.Protection.Verdict
import Logweir.Retention.Books
import Logweir.Retention.Drained
import Logweir.Switchover.Compared
import Logweir.Switchover.Generated
import Logweir.Switchover.Roundtrip
import Logweir.Kbak.Decoded
import Logweir.Kbak.Lz4Block
import Logweir.Verify.Holes
import Logweir.Cadence.Grammar
import Logweir.Cadence.Skipped
import Logweir.Core.TopicIdentity
import Logweir.CatalogSync.Order
import Logweir.Protection.Alerts
import Logweir.Conditions.Preconditioned
import Logweir.Inventory.Straddle
import Logweir.Topics.KubernetesName
import Logweir.Inventory.Latest
import Logweir.Api.RateLimit
import Logweir.Core.OriginalName
import Logweir.Drill.Creation
import Logweir.Core.ForbiddenKeys
import Logweir.Render.Scalar
import Logweir.Catalog.View
import Logweir.Schemas.Closure
import Logweir.Core.RestoreSpec
import Logweir.Teardown.Record
import Logweir.Teardown.Attested
import Logweir.Schedule.Reserved
import Logweir.Discovery.Frozen
import Logweir.Receipt.Facts
import Logweir.Core.Resolved
