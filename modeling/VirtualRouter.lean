import VirtualRouter.Lib.Run
import VirtualRouter.Lib.PrefixMap
import VirtualRouter.Types.LpcTrie
import VirtualRouter.Types.LpcTrieBits
import VirtualRouter.Types.LpcTriePrefixes
import VirtualRouter.Types.LpcTrieExact
import VirtualRouter.Types.LpcTrieLpm
import VirtualRouter.Types.LpcTrieChildren
import VirtualRouter.Types.RadixTree
import VirtualRouter.Types.RadixTreeBits
import VirtualRouter.Types.RadixTreeMap
import VirtualRouter.Routing.RibBucket
import VirtualRouter.Routing.Rib
import VirtualRouter.Routing.RibHistory
import VirtualRouter.Routing.RouteWatcher
import VirtualRouter.Routing.WatchIds
import VirtualRouter.Routing.WatchIdsRun
import VirtualRouter.Routing.PrefixWatch
import VirtualRouter.Routing.ProtocolWatch
import VirtualRouter.Routing.AddressWatch
import VirtualRouter.Transport.RxBuffer
import VirtualRouter.Transport.TxBufferPool
import VirtualRouter.Transport.TxBuffer
import VirtualRouter.Lib.Bytes
import VirtualRouter.Utils.ByteUtils
import VirtualRouter.Bgp.BgpTypes
import VirtualRouter.Bgp.Framing
import VirtualRouter.Lib.SingleFloat
import VirtualRouter.Types.StableHashMap
import VirtualRouter.Types.StableHashMapRun
import VirtualRouter.Bgp.Capabilities
import VirtualRouter.Bgp.CapabilityRoundTrip
import VirtualRouter.Bgp.BgpTx
import VirtualRouter.Bgp.BgpOpen
import VirtualRouter.Bgp.OpenExchange
import VirtualRouter.Bgp.PathAttributes
import VirtualRouter.Bgp.UpdateParser
import VirtualRouter.Bgp.UpdateBounds
import VirtualRouter.Bgp.AttributeCost
import VirtualRouter.Bgp.AttributeRoundTrip
import VirtualRouter.Bgp.Fsm
import VirtualRouter.Bgp.Negotiation
import VirtualRouter.Bgp.FsmOutcome
import VirtualRouter.Bgp.FsmRuns
import VirtualRouter.Bgp.BestPath
import VirtualRouter.Bgp.AttributeManager
import VirtualRouter.Bgp.AttributeManagerRun
import VirtualRouter.Bgp.EgressPolicy
import VirtualRouter.Bgp.AddressFamily
import VirtualRouter.Bgp.AdjRibIn
import VirtualRouter.Bgp.RouteRefresh
import VirtualRouter.Bgp.AdjRibOut
import VirtualRouter.Bgp.RecomputeNlri
import VirtualRouter.Bgp.WithdrawPropagation
import VirtualRouter.Bgp.LocRibInstall
import VirtualRouter.Bgp.AttributeRefs
import VirtualRouter.Bgp.UpdateBuilder
import VirtualRouter.Bgp.UpdateRoundTrip
import VirtualRouter.Bgp.Collision
import VirtualRouter.Lib.ShortestPath
import VirtualRouter.Ospf.SpfTypes
import VirtualRouter.Ospf.SpfTopology
import VirtualRouter.Ospf.SpfEngine
import VirtualRouter.Ospf.SpfInvariant
import VirtualRouter.Ospf.SpfFull
import VirtualRouter.Ospf.SpfFinal
import VirtualRouter.Ospf.SpfFirstHops
import VirtualRouter.Lib.NestedMap
import VirtualRouter.Ospf.LsdbTable
import VirtualRouter.Core.TimeManager
import VirtualRouter.Dhcp.DhcpInfo
import VirtualRouter.Dhcp.IPv4Pool
import VirtualRouter.Dhcp.IPv4PoolExclusive
import VirtualRouter.Dhcp.IPv4LeaseManager
import VirtualRouter.Dhcp.IPv4LeaseAgreement
import VirtualRouter.Dhcp.IPv6Pool
import VirtualRouter.Dhcp.IPv6LeaseManager
import VirtualRouter.Dhcp.IPv6LeaseExclusive
import VirtualRouter.Dhcp.PrefixPool
import VirtualRouter.Dhcp.PrefixDisjoint
import VirtualRouter.Dhcp.PrefixLeaseManager
import VirtualRouter.Dhcp.LockDiscipline
import VirtualRouter.Ospf.FloodQueue
import VirtualRouter.Lib.BoundedWrite
import VirtualRouter.Ospf.LsaBodyV2
import VirtualRouter.Ospf.RetransmissionList
import VirtualRouter.Lib.Fletcher
import VirtualRouter.Ospf.OspfFletcher
import VirtualRouter.Ospf.RxV2
import VirtualRouter.Ospf.RxV2Bounds
import VirtualRouter.Ospf.LsaInstall
import VirtualRouter.Ospf.LsaInstallLaw
import VirtualRouter.Ospf.Origination
import VirtualRouter.Ospf.DbExchange
import VirtualRouter.Ospf.Adjacency
import VirtualRouter.Ospf.ReliableFlooding
import VirtualRouter.Bgp.As4Merge
import VirtualRouter.Bgp.NlriCodec
import VirtualRouter.Transport.ReserveSpan
import VirtualRouter.Transport.SocketAddress
import VirtualRouter.Bgp.OpenLength
import VirtualRouter.Ospf.UpdatePacket
import VirtualRouter.Lib.RefCount
import VirtualRouter.Ospf.RecordRefs
import VirtualRouter.Ospf.TopologyTable
import VirtualRouter.Ospf.OspfRib
import VirtualRouter.Ospf.Recompute
import VirtualRouter.Ospf.SummaryFeed
import VirtualRouter.Ospf.VrfSync
import VirtualRouter.Ospf.RibAgreement
import VirtualRouter.Types.IPPrefix
import VirtualRouter.Bgp.EgressLaw
import VirtualRouter.Bgp.Multipath
import VirtualRouter.Eigrp.DuelEngine
import VirtualRouter.Types.PrefixBytes
import VirtualRouter.Bgp.NextHopTracking
import VirtualRouter.Bgp.OrfFilter
import VirtualRouter.Bgp.SoftInbound
import VirtualRouter.Bgp.AdvertiseTwice
import VirtualRouter.Bgp.RecomputeBatch
import VirtualRouter.Dhcp.DhcpOptions
import VirtualRouter.Dhcp.DhcpTlvManager
import VirtualRouter.Dhcp.PrefixCompleteness
import VirtualRouter.Ospf.LsaRecency
import VirtualRouter.Dhcp.IPv4PoolRange
import VirtualRouter.Lib.CheckedBlocks
import VirtualRouter.Eigrp.TLVBounds
import VirtualRouter.Eigrp.InterfaceMetrics
import VirtualRouter.Ospf.ChangePropagation
import VirtualRouter.Dhcp.DeclineLaw
import VirtualRouter.Eigrp.ReliableTX
import VirtualRouter.Eigrp.Packetisation
import VirtualRouter.Ospf.FletcherSums
import VirtualRouter.Ospf.RouterLsaV3
import VirtualRouter.Lib.IndexSort
import VirtualRouter.Ospf.RouterLsaEquality
import VirtualRouter.Ospf.PrefixLsaV3
import VirtualRouter.Ospf.PrefixLsaReads
import VirtualRouter.Ospf.PrefixLsaRoundTrip
import VirtualRouter.Ospf.Election
import VirtualRouter.Ospf.ElectionPass
import VirtualRouter.Ospf.ElectionLaw
import VirtualRouter.Ospf.Descriptions
import VirtualRouter.Ospf.NextHops
import VirtualRouter.Ospf.SpfIndex
import VirtualRouter.Ospf.Derivation
import VirtualRouter.Ospf.ExternalDerivation
import VirtualRouter.Ospf.AreaRanges
import VirtualRouter.Core.ProcessDrain
import VirtualRouter.Core.SubQueue
import VirtualRouter.Ospf.SpfManager
