import DistStore.Lib.Bytes
import DistStore.Lib.Splice
import DistStore.Lib.Pairs
import DistStore.Lib.Keyed
import DistStore.Lib.Transition
import DistStore.Lib.Chunks
import DistStore.Lib.Padding
import DistStore.Model.Types
import DistStore.Model.FileServer
import DistStore.Model.Packet
import DistStore.Model.Server
import DistStore.Model.IndexFiles
import DistStore.Model.FanoutIO
import DistStore.Model.Gateway
import DistStore.Model.Procedures
import DistStore.Model.IndexRun
import DistStore.Model.Network
import DistStore.Model.Failover
import DistStore.Model.RingNet
import DistStore.Model.RawTransfer
import DistStore.Model.ControlStream
import DistStore.Proofs.Placement
import DistStore.Proofs.NewFile
import DistStore.Proofs.Redundancy
import DistStore.Proofs.Rebuild
import DistStore.Proofs.Uploads
import DistStore.Proofs.RoundTrip
import DistStore.Proofs.Failover
import DistStore.Proofs.RingSteps
import DistStore.Proofs.Membership
import DistStore.Proofs.RingNotice
import DistStore.Proofs.RingDeath
import DistStore.Proofs.RingElection
import DistStore.Proofs.DeathNotice
import DistStore.Proofs.QuietIndex
import DistStore.Proofs.UniqueIndex
import DistStore.Proofs.RawTransfer
import DistStore.Proofs.Fanout
import DistStore.Proofs.ControlStream
import DistStore.Proofs.IndexRun
import DistStore.Proofs.FreshIds
import DistStore.Model.Listener
import DistStore.Proofs.BackwardPeer
import DistStore.Model.MainLoop
import DistStore.Proofs.PassCases
import DistStore.Proofs.PendingRepair
import DistStore.Model.PeerTable
import DistStore.Proofs.PlacementSlots
import DistStore.Proofs.TableFrame
import DistStore.Proofs.TableInvariant
import DistStore.Proofs.TableRange
import DistStore.Proofs.Registration
import DistStore.Model.ClientPacket
import DistStore.Proofs.ClientPacket
import DistStore.Proofs.BalancedPlacement
import DistStore.Proofs.ReceiveBounds
import DistStore.Proofs.GatewayAnswer
import DistStore.Proofs.KnowledgeEnd
import DistStore.Proofs.FragmentSlots
import DistStore.Model.RingBoot
import DistStore.Proofs.GossipLog
import DistStore.Proofs.RingBoot
import DistStore.Proofs.BootGossip
import DistStore.Proofs.IndexGossip
import DistStore.Model.Sockets
import DistStore.Proofs.SocketFrame
import DistStore.Proofs.SocketEvents
import DistStore.Proofs.Sockets
import DistStore.Proofs.ClientPanic
import DistStore.Model.LargeSend
import DistStore.Proofs.LargeSend
import DistStore.Proofs.RawCounts
import DistStore.Model.AddressText
import DistStore.Proofs.AddressText
import DistStore.Model.FileTable
import DistStore.Proofs.FileTable
import DistStore.Lib.Chain
import DistStore.Model.IndexStores
import DistStore.Proofs.IndexStores
import DistStore.Proofs.IndexOrder
import DistStore.Model.ClientConnection
import DistStore.Proofs.ClientConnection
import DistStore.Model.Divisors
import DistStore.Proofs.Divisors
import DistStore.Model.Narrowing
import DistStore.Proofs.Narrowing
import DistStore.Model.AddressSyntax
import DistStore.Proofs.AddressSyntax
import DistStore.Lib.Counter
import DistStore.Model.StoreDump
import DistStore.Proofs.StoreDump
import DistStore.Model.TcpSend
import DistStore.Proofs.TcpSend
import DistStore.Model.FreeFile
import DistStore.Proofs.FreeFile
import DistStore.Model.StoreRun
import DistStore.Proofs.StoreRun
import DistStore.Proofs.Collect
import DistStore.Proofs.StoreRead
import DistStore.Proofs.FailoverRead
import DistStore.Lib.Calls
import DistStore.Lib.CallRuns
import DistStore.Model.Sessions
import DistStore.Proofs.Sessions
import DistStore.Proofs.Downloads
import DistStore.Model.Nodes
import DistStore.Model.ClientCommands
import DistStore.Proofs.ClientCommands
import DistStore.Proofs.Nodes
import DistStore.Proofs.NodesRead
