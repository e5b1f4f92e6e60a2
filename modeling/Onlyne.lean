import Onlyne.Core.Cursors
import Onlyne.Trust.Durability
import Onlyne.Trust.Agreement
import Onlyne.Trust.Authentication
import Onlyne.Messages.AtMostOnce
import Onlyne.Messages.Refusals
import Onlyne.Messages.Confidentiality
import Onlyne.Messages.Closing
import Onlyne.Messages.Confinement
import Onlyne.Messages.Permits
import Onlyne.Messages.Membership
import Onlyne.Messages.Grants
import Onlyne.Messages.Resume
import Onlyne.Messages.Tracing
import Onlyne.Messages.Revocation
import Onlyne.Messages.Bodies
import Onlyne.Messages.InboxPages
import Onlyne.Resources.Consent
import Onlyne.Resources.Executions
import Onlyne.Resources.Cursors
import Onlyne.Resources.Retries
import Onlyne.Resources.Settlements
import Onlyne.Resources.RowKeys
import Onlyne.Client.Schedule
import Onlyne.Client.Exclusion
import Onlyne.Client.OwnerIsolation
import Onlyne.Client.Parking
import Onlyne.Client.Maintenance
import Onlyne.Client.Waiters
import Onlyne.Mounts.Overlap
import Onlyne.Migration.Files
import Onlyne.Migration.Rewrite
import Onlyne.Omp.Spawn
import Onlyne.Omp.Consumption
import Onlyne.Omp.Inbound
import Onlyne.Mcp.Tools
import Onlyne.Im.Storage
import Onlyne.Im.Render
import Onlyne.Im.Pusher
import Onlyne.Im.Coordinates
