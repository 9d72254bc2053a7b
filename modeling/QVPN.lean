import QVPN.Lib.Agreement
import QVPN.Lib.BigEndian
import QVPN.Lib.Buffer
import QVPN.Lib.ByteOrder
import QVPN.Lib.Checksum
import QVPN.Lib.Comparison
import QVPN.Lib.Components
import QVPN.Lib.Decimal
import QVPN.Lib.FilterClauses
import QVPN.Lib.FilterGrammar
import QVPN.Lib.Fragments
import QVPN.Lib.InputLoop
import QVPN.Lib.Interleaving
import QVPN.Lib.Lens
import QVPN.Lib.Like
import QVPN.Lib.Memory
import QVPN.Lib.OnesComplement
import QVPN.Lib.Polling
import QVPN.Lib.Run
import QVPN.Lib.Spans
import QVPN.Lib.Strides
import QVPN.Structures.Addr
import QVPN.Structures.AddrText
import QVPN.Structures.ClientHello
import QVPN.Structures.FatPacket
import QVPN.Structures.FullPacket
import QVPN.Structures.Generate
import QVPN.Structures.Hello
import QVPN.Structures.HelloStrategy
import QVPN.Structures.Http
import QVPN.Structures.Ipv4Getters
import QVPN.Structures.Message
import QVPN.Structures.NewPacket
import QVPN.Structures.PacketChanges
import QVPN.Structures.ProxyEncoders
import QVPN.Structures.Record
import QVPN.Structures.Refill
import QVPN.Structures.ServerHello
import QVPN.Structures.SocketData
import QVPN.Structures.Tcp
import QVPN.Structures.TcpOptions
import QVPN.Structures.TcpSetters
import QVPN.Structures.Tunnel
import QVPN.Structures.Types
import QVPN.Structures.UdpGetters
import QVPN.Driver.Authorization
import QVPN.Driver.Capture
import QVPN.Driver.CaptureFilters
import QVPN.Driver.Client
import QVPN.Driver.Codec
import QVPN.Driver.Database
import QVPN.Driver.Dissector
import QVPN.Driver.Handshake
import QVPN.Driver.Inject
import QVPN.Driver.Layers
import QVPN.Driver.ListenResponses
import QVPN.Driver.PacketManager
import QVPN.Driver.ProcessSocket
import QVPN.Driver.ReceiveLoop
import QVPN.Driver.SafeReceive
import QVPN.Driver.Server
import QVPN.Driver.SocketFilter
import QVPN.Driver.Split
import QVPN.Driver.TrafficFilter
import QVPN.Properties.AddrParser
import QVPN.Properties.AddrText
import QVPN.Properties.Authorization
import QVPN.Properties.BuilderInvariant
import QVPN.Properties.CaptureFilters
import QVPN.Properties.CapturedPacket
import QVPN.Properties.ChecksumHelper
import QVPN.Properties.ClientRuns
import QVPN.Properties.ConnectionTables
import QVPN.Properties.Conversation
import QVPN.Properties.DecodeSafety
import QVPN.Properties.Dissector
import QVPN.Properties.ExtensionWalk
import QVPN.Properties.FilterAlgebra
import QVPN.Properties.FilterExactness
import QVPN.Properties.ForwardPath
import QVPN.Properties.FragmentHeaders
import QVPN.Properties.Framing
import QVPN.Properties.GeneratedIpv4
import QVPN.Properties.Handshake
import QVPN.Properties.HandshakeBytes
import QVPN.Properties.HandshakeMessage
import QVPN.Properties.HeaderSetters
import QVPN.Properties.HeaderTransparency
import QVPN.Properties.HelloRanges
import QVPN.Properties.HttpHeaderEnd
import QVPN.Properties.HttpHeaderLookup
import QVPN.Properties.IdIndependence
import QVPN.Properties.Identification
import QVPN.Properties.InjectedProtocol
import QVPN.Properties.Ipv4Forms
import QVPN.Properties.KeyEquality
import QVPN.Properties.LayerStack
import QVPN.Properties.ListenResponses
import QVPN.Properties.LossAndReuse
import QVPN.Properties.ManagerSides
import QVPN.Properties.NatRoundTrip
import QVPN.Properties.NewPayload
import QVPN.Properties.OptionWalk
import QVPN.Properties.PacketBoundaries
import QVPN.Properties.PacketLengths
import QVPN.Properties.PoppedPackets
import QVPN.Properties.PreParseSafety
import QVPN.Properties.ProcessSocket
import QVPN.Properties.ProxyEncoders
import QVPN.Properties.Reassembly
import QVPN.Properties.ReceiveLoop
import QVPN.Properties.ReceiveSafety
import QVPN.Properties.RecordClassification
import QVPN.Properties.Reinjection
import QVPN.Properties.RepeatedUse
import QVPN.Properties.RequestLoop
import QVPN.Properties.ResponseEntries
import QVPN.Properties.ResponseIsolation
import QVPN.Properties.ReturnPath
import QVPN.Properties.RoundTrip
import QVPN.Properties.Segmentation
import QVPN.Properties.SenderPacket
import QVPN.Properties.ServerHello
import QVPN.Properties.ServerName
import QVPN.Properties.SharedManager
import QVPN.Properties.SocketFilter
import QVPN.Properties.SplitAddressing
import QVPN.Properties.SplitPartition
import QVPN.Properties.SplitSizes
import QVPN.Properties.TcpForms
import QVPN.Properties.TcpReinjection
import QVPN.Properties.TransplantedHeader
import QVPN.Properties.TransportChecksum
import QVPN.Properties.UdpForms
import QVPN.Properties.UdpReinjection
import QVPN.Properties.UserCheck
import QVPN.Driver.Whitelist
import QVPN.Lib.Prefixed
import QVPN.Lib.TlsFormat
import QVPN.Properties.SeenHello
import QVPN.Properties.Visits
