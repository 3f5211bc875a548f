import Gfe.Dns.Cache
import Gfe.Edge.Accounting
import Gfe.Handler.Coalescing
import Gfe.Handler.Ending
import Gfe.Handler.ForwardedElement
import Gfe.Handler.HopByHop
import Gfe.Handler.Redirect
import Gfe.Handler.RequestId
import Gfe.Handler.Snapshots
import Gfe.Health.Departures
import Gfe.Health.ServingStatus
import Gfe.Kernel.Reader
import Gfe.Listen.Draining
import Gfe.LoadBalancing.LastResort
import Gfe.LoadBalancing.Turns
import Gfe.Node.Instants
import Gfe.Node.Refusals
import Gfe.Node.Service
import Gfe.Node.Takeover
import Gfe.Reload.Cache
import Gfe.Reload.Commits
import Gfe.Reload.Expiries
import Gfe.Reload.Forgotten
import Gfe.Reload.Inherited
import Gfe.Reload.Rejected
import Gfe.Reload.Restart
import Gfe.Reload.Rotation
import Gfe.Reload.Shutdown
import Gfe.Reload.Watcher
import Gfe.Tls.Misses
