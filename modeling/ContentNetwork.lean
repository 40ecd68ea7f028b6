import ContentNetwork.Lib.Lts
import ContentNetwork.Lib.Threads
import ContentNetwork.Lib.Bisimulation
import ContentNetwork.Lib.Keyed
import ContentNetwork.Lib.Buffer
import ContentNetwork.Lib.BigEndian
import ContentNetwork.Lib.Hex
import ContentNetwork.Lib.Minimum
import ContentNetwork.Common.Packet
import ContentNetwork.Common.AnnouncementPath
import ContentNetwork.Common.Receive
import ContentNetwork.Common.Codec
import ContentNetwork.Common.HeaderFields
import ContentNetwork.Common.Ports
import ContentNetwork.Common.HWAddr
import ContentNetwork.Host.Content
import ContentNetwork.Host.Offered
import ContentNetwork.Host.Announce
import ContentNetwork.Network.SendBuffer
import ContentNetwork.Host.Serve
import ContentNetwork.Simplified.Cases
import ContentNetwork.Host.Retransmit
import ContentNetwork.Host.Resending
import ContentNetwork.Simplified.MainLoop
import ContentNetwork.Simplified.TableInv
import ContentNetwork.Simplified.CommitKept
import ContentNetwork.Simplified.Atomic
import ContentNetwork.Simplified.HandOver
import ContentNetwork.Simplified.KeptBySource
import ContentNetwork.Simplified.Snapshot
import ContentNetwork.Simplified.Sequence
import ContentNetwork.Simplified.Provenance
import ContentNetwork.Simplified.Lifetime
import ContentNetwork.Simplified.Contents
import ContentNetwork.Simplified.Follows
import ContentNetwork.Simplified.Configuration
import ContentNetwork.Simplified.Expiry
import ContentNetwork.Network.Topology
import ContentNetwork.Network.AnnouncementFlood
import ContentNetwork.Network.Convergence
import ContentNetwork.Network.LoopFree
import ContentNetwork.Network.FloodEnds
import ContentNetwork.Network.Retrace
import ContentNetwork.Network.LossyRoutes
import ContentNetwork.Network.Provenance
import ContentNetwork.Network.Ledger
import ContentNetwork.Network.Quiescence
import ContentNetwork.Network.Withdrawn
import ContentNetwork.Network.Wire
import ContentNetwork.Network.Horizon
import ContentNetwork.Network.Saved
import ContentNetwork.Network.EndToEnd
import ContentNetwork.Network.Available
import ContentNetwork.Network.Recovery
import ContentNetwork.Ambitious.PendingTable
import ContentNetwork.Ambitious.PendingRefines
import ContentNetwork.Ambitious.PendingMap
import ContentNetwork.Ambitious.PendingVector
import ContentNetwork.Ambitious.RoutingTable
import ContentNetwork.Ambitious.RouteLifetime
import ContentNetwork.Ambitious.Router
import ContentNetwork.Ambitious.BestRoute
import ContentNetwork.Ambitious.Network
import ContentNetwork.Ambitious.EndlessFlood
import ContentNetwork.Ambitious.Exchange
import ContentNetwork.Ambitious.HopCount
import ContentNetwork.Ambitious.Behaviour
import ContentNetwork.SimpleRouter.Cases
import ContentNetwork.SimpleRouter.Threads
import ContentNetwork.SimpleRouter.Unique
import ContentNetwork.SimpleRouter.Response
import ContentNetwork.SimpleRouter.StoredRoute
import ContentNetwork.SimpleRouter.OneRoute
