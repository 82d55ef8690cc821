import SturmRelay.Foundations.Table
import SturmRelay.Foundations.Heap
import SturmRelay.Foundations.Runs
import SturmRelay.Foundations.Custody
import SturmRelay.Foundations.Mailbox
import SturmRelay.Foundations.Bytes
import SturmRelay.Foundations.Brackets
import SturmRelay.Foundations.StreamReader
import SturmRelay.Foundations.Segments
import SturmRelay.Foundations.Deadlines
import SturmRelay.Foundations.BufferedWriter
import SturmRelay.Protocol.RelayWire
import SturmRelay.Relay.Session
import SturmRelay.Relay.SessionManager
import SturmRelay.Relay.Consistency
import SturmRelay.Relay.Reaper
import SturmRelay.Relay.ReaperSafety
import SturmRelay.Relay.ReaperExact
import SturmRelay.Relay.HTTPAPI
import SturmRelay.Relay.ServeHTTP
import SturmRelay.Relay.PerIPLimit
import SturmRelay.Relay.Admission
import SturmRelay.Relay.Invariant
import SturmRelay.Relay.Router
import SturmRelay.Relay.Routing
import SturmRelay.Relay.Players
import SturmRelay.Relay.Server
import SturmRelay.Relay.Delivery
import SturmRelay.Relay.DatagramSafety
import SturmRelay.Relay.Pinning
import SturmRelay.Relay.ErrorAtomicity
import SturmRelay.Relay.ReaperGrace
import SturmRelay.Relay.ReaperDeadline
import SturmRelay.Relay.Connections
import SturmRelay.Relay.TCPHandler
import SturmRelay.Relay.EntryConns
import SturmRelay.Relay.CurrentConns
import SturmRelay.Relay.Registration
import SturmRelay.Relay.Registry
import SturmRelay.Relay.Addressing
import SturmRelay.Relay.Egress
import SturmRelay.Relay.Accounting
import SturmRelay.Relay.RateLimit
import SturmRelay.Relay.SoloSession
import SturmRelay.Relay.SessionView
import SturmRelay.Relay.Isolation
import SturmRelay.Protocol.GPGNet
import SturmRelay.Protocol.GPGNetGrammar
import SturmRelay.Protocol.GPGNetWriter
import SturmRelay.Protocol.GPGNetRoundTrip
import SturmRelay.Protocol.JSONRPC
import SturmRelay.Adapter.RelayConnection
import SturmRelay.Adapter.Framing
import SturmRelay.Adapter.ReadTimeouts
import SturmRelay.Adapter.RPCServer
import SturmRelay.Adapter.RPCExchange
import SturmRelay.Adapter.Transport
import SturmRelay.Relay.PartialWrites
import SturmRelay.Adapter.GPGNetServer
import SturmRelay.Adapter.LobbyQueue
import SturmRelay.Adapter.LobbyOrder
import SturmRelay.Adapter.GameData
import SturmRelay.Adapter.EchoLink
import SturmRelay.Adapter.EchoProtocol
import SturmRelay.Adapter.RelayPeer
import SturmRelay.Adapter.RelayPath
import SturmRelay.Adapter.RelayOrigins
import SturmRelay.Adapter.RelayAuthentic
import SturmRelay.Adapter.RelayPassage
import SturmRelay.Adapter.ICEPeer
import SturmRelay.Adapter.Credentials
import SturmRelay.Adapter.PeerManager
import SturmRelay.Adapter.PeerTables
import SturmRelay.Adapter.SocketOwnership
import SturmRelay.Adapter.RPCHandler
import SturmRelay.Adapter.Linking
import SturmRelay.Adapter.RestartTargets
import SturmRelay.Adapter.RestartBudget
import SturmRelay.Adapter.Signals
import SturmRelay.Adapter.DuplicateSignals
import SturmRelay.Adapter.Disconnected
import SturmRelay.Adapter.Lobby
import SturmRelay.Adapter.LobbyModes
import SturmRelay.Adapter.GameConnections
