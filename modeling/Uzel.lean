import Uzel.Foundation.Runs
import Uzel.Foundation.Outcome
import Uzel.Foundation.PropertyTree
import Uzel.Foundation.Json
import Uzel.Msg
import Uzel.Priority
import Uzel.InputProcessor
import Uzel.Verified.Framing
import Uzel.Verified.WireRoundTrip
import Uzel.Session
import Uzel.Verified.WritePump
import Uzel.Foundation.Timer
import Uzel.OutgoingManager
import Uzel.Verified.ReconnectLoop
import Uzel.Remote
import Uzel.Verified.ChannelOrder
import Uzel.Dispatcher
import Uzel.Server
import Uzel.Verified.SlotAuthenticity
import Uzel.Verified.ReadPath
import Uzel.Verified.SingleWriter
import Uzel.Verified.MessageCustody
import Uzel.Net
import Uzel.Verified.PriorityAgreement
import Uzel.ServerRules
import Uzel.Verified.SelfRouting
import Uzel.Chronicle
import Uzel.Verified.SessionRegistry
import Uzel.Verified.ConnectionAttempts
import Uzel.Verified.AuthenticationGate
import Uzel.Verified.DeadSessions
import Uzel.Verified.HostProgress
import Uzel.Verified.RolePartition
import Uzel.Verified.Delivery
import Uzel.Verified.BroadcastFlood
import Uzel.Verified.FirstTexts
import Uzel.Verified.RefusedConnection
import Uzel.Verified.SingleInstance
import Uzel.Verified.QueueTakeover
import Uzel.Verified.ClosingProtocol
import Uzel.Verified.RelayTransparency
import Uzel.Verified.LocalDelivery
import Uzel.Registry
import Uzel.DispatchLoop
import Uzel.Verified.DispatchSnapshots
import Uzel.Verified.HandlerIds
import Uzel.Connections
import Uzel.Verified.HandlerOwnership
import Uzel.NetClient
import Uzel.Verified.ClientReconnect
import Uzel.Verified.ThirdRole
import Uzel.Verified.NeededConnection
import Uzel.Verified.AddressStrings
import Uzel.Verified.BodyParsing
import Uzel.Verified.ConnectionPolicy
import Uzel.Verified.ExpirySafety
import Uzel.Verified.MessageAge
import Uzel.Verified.PriorityText
import Uzel.Foundation.Simulation
import Uzel.Application
import Uzel.Usender
import Uzel.Uecho
import Uzel.Verified.SingleConnection
import Uzel.Verified.ClientCustody
import Uzel.Verified.ApplicationRuns
import Uzel.Verified.PingPacing
import Uzel.Verified.EchoAnswers
import Uzel.Verified.PingPong
import Uzel.SocketServer
import Uzel.Verified.OutputRules
import Uzel.Verified.Provenance
import Uzel.Verified.OutputFraming
import Uzel.Verified.Segmentation
import Uzel.Verified.DispatcherRefinement
import Uzel.Verified.ResolveRate
import Uzel.Foundation.Separated
import Uzel.Remotes
import Uzel.AResolver
import Uzel.Verified.ConfiguredHosts
import Uzel.Verified.ResolverPool
import Uzel.Network
import Uzel.Verified.NetworkTraffic
