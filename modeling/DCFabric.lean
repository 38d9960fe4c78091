import DCFabric.TransitionRuns
import DCFabric.TagForwarding
import DCFabric.PathUpdateThread
import DCFabric.OfRecvStreams
import DCFabric.ClusterStreams
import DCFabric.ElectionMutex
import DCFabric.ElectionRelease
import DCFabric.ClusterMerge
import DCFabric.TagMgr
import DCFabric.ClusterRecvSafety
import DCFabric.FlowRefinement
import DCFabric.SyncTables
import DCFabric.TlvDecoders
import DCFabric.TlvStreams
import DCFabric.ClusterSyncRecover
import DCFabric.ClusterSyncRequests
import DCFabric.TlvRecords
import DCFabric.ClusterSyncEncode
import DCFabric.ListSync
import DCFabric.CMsgQueue
import DCFabric.MsgQueueRaces
import DCFabric.CMsgTreeNode
import DCFabric.CSNatConnMgr
import DCFabric.LinkPairs
import DCFabric.LinkSync
import DCFabric.ListSyncCuts
import DCFabric.FlowRemovedParse
import DCFabric.OxmEncode
import DCFabric.FlowExpiry
import DCFabric.SwitchMaps
import DCFabric.OwnedPools
import DCFabric.SwitchTags
import DCFabric.ListErrors
import DCFabric.ConsumerRegistration
import DCFabric.HostRaces
import DCFabric.OverrideRace
import DCFabric.KeyedLists
import DCFabric.CFirewallPolicy
import DCFabric.FirewallRules
import DCFabric.FirewallFlows
import DCFabric.FirewallVerdicts
import DCFabric.SharedFlows
import DCFabric.PortforwardFlows
import DCFabric.PairedEnds
import DCFabric.RemoteConnections
import DCFabric.DoublyLinked
import DCFabric.FlowEntries
import DCFabric.MemPool
import DCFabric.NatConnect
import DCFabric.NatCapacity
import DCFabric.NeighborPorts
import DCFabric.TopoEvents
import DCFabric.FabricSwitches
import DCFabric.SendBuffers
import DCFabric.RecvBuffers
import DCFabric.FlowRemovedMatch
import DCFabric.SwitchMessages
import DCFabric.OxmTlvs
import DCFabric.SNatPorts
import DCFabric.FlowTranslate
import DCFabric.FlowParams
import DCFabric.PassonQueues
import DCFabric.CConf
import DCFabric.FlowInclusion
import DCFabric.SetFieldEncode
import DCFabric.RecordWriters
import DCFabric.FlowModEncode
import DCFabric.FabricPaths
import DCFabric.FabricPathLayers
import DCFabric.FabricPathSteps
import DCFabric.FabricForwarding
import DCFabric.AnsweredCalls
import DCFabric.LoopBufferQueue
import DCFabric.JsonText
import DCFabric.GenJson
import DCFabric.OvsdbRecvWorker
import DCFabric.JsonWalks
import DCFabric.OvsdbNotifications
import DCFabric.PacketIns
import DCFabric.PacketOuts
import DCFabric.TopoDiscovery
import DCFabric.ReceiveLoop
import DCFabric.BitsetRecover
import DCFabric.ConfLoading
import DCFabric.InetText
import DCFabric.PortforwardChecks
import DCFabric.ControllerLists
import DCFabric.MemQueue
import DCFabric.InteriorWalks
import DCFabric.LldpPackets
import DCFabric.PathCalc
import DCFabric.CMemPool
import DCFabric.PipeEvents
import DCFabric.TimerThread
import DCFabric.FlowCopies
import DCFabric.MatchMasks
import DCFabric.IpChecksum
import DCFabric.HexText
import DCFabric.AddressText
import DCFabric.CHashMap
import DCFabric.SyncDispatch
import DCFabric.FlowReplication
import DCFabric.FabricSwapFlows
import DCFabric.HeartbeatRotation
import DCFabric.IniStore
import DCFabric.OpenstackPolls
import DCFabric.LbaasReplication
import DCFabric.LbaasRoundRobin
