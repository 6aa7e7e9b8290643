import VQuasar.Quota.Usage
import VQuasar.Tenancy.Convergence
import VQuasar.Tenancy.Policy
import VQuasar.Tenancy.Reads
import VQuasar.Requests.Numbering
import VQuasar.Lifecycle.CpuSafety
import VQuasar.Lifecycle.GivingUp
import VQuasar.Lifecycle.OpenFiles
import VQuasar.Lifecycle.Pins
import VQuasar.Lifecycle.Progress
import VQuasar.Lifecycle.Receivers
import VQuasar.Dataplane.Bridge
import VQuasar.Dataplane.Isolation
import VQuasar.Dataplane.Tunnels
import VQuasar.Leadership.Stamping
import VQuasar.Vmm.Adoption
import VQuasar.Vmm.Locks
import VQuasar.Vmm.Tracking
import VQuasar.Segments.Networks
import VQuasar.Reclaim.Orphans
import VQuasar.Reclaim.Startup
import VQuasar.Storage.Images
import VQuasar.Provisioning.Atomicity
