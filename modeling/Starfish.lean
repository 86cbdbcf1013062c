import Starfish.Quic.Packet.PacketNumber
import Starfish.Quic.Packet.RetryToken
import Starfish.Quic.Packet.ParameterCodec
import Starfish.Quic.Transport.AckedRanges
import Starfish.Quic.Connection.RecvLedger
import Starfish.Quic.Connection.StreamLink
import Starfish.Quic.Connection.SplitExact
import Starfish.Quic.Connection.Packetise
import Starfish.Quic.Connection.Amplification
import Starfish.Quic.Connection.Inert
import Starfish.Quic.Connection.HostileBytes
import Starfish.Quic.Connection.PathMtuSearch
import Starfish.Quic.Connection.AckLink
import Starfish.Quic.Connection.ClosingHistory
import Starfish.Quic.Connection.CreditLink
import Starfish.Quic.Connection.OutstandingCredit
import Starfish.Quic.Transport.ConnectionIdLife
import Starfish.Quic.Recovery.PersistentCongestion
import Starfish.Quic.Recovery.RttBounds
import Starfish.Quic.Server.Routing
import Starfish.Http.H1.ChunkedBody
import Starfish.Http.H1.Pipelining
import Starfish.Http.H1.Interim
import Starfish.Http.H3.ControlStream
import Starfish.Http.H3.ServerPush
import Starfish.Http.Client.CookieScope
import Starfish.Http.Client.Totality
import Starfish.Http.Client.Redirect
import Starfish.Core.Treap
import Starfish.Core.SplitOrder
import Starfish.Http.H3.RequestDelivery
import Starfish.Reactor.InitBarrier
