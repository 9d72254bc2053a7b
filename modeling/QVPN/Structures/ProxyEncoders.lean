import QVPN.Structures.Addr
import QVPN.Structures.Record

/-!
# Proxy data over any type of addresses

The proxy data of a packet, its two encoders and its decoder are templates over the type of the
addresses. With addresses of any size they are the ones that the drivers use.
-/

namespace QVPN

open BigEndian Memory

/-- Proxy data whose addresses have a given type. -/
structure QTunnelProxyOf (Addr : Type) where
  netProtocol : NetProtocol
  transportProtocol : TransportProtocol
  sourceAddr : Addr
  sourcePort : UShort
  dstAddr : Addr
  dstPort : UShort
  protoData : QTunnelProtoData

namespace QTunnelProxyOf

variable {Addr : Type} [IsAddr Addr]

/-- The sizes that are announced add up in sixteen bits. -/
def getProxyDataSize (p : QTunnelProxyOf Addr) : Except Fault UShort := do
  let length ← p.protoData.getLength
  return UInt16.ofNat (1 + 1 + IsAddr.getAddrSize p.sourceAddr + 2 +
    IsAddr.getAddrSize p.dstAddr + 2 + length.toNat + 2)

/-- The encoded fields before the proto data. -/
def headerBytes (p : QTunnelProxyOf Addr) : List UByte :=
  [p.netProtocol.val, p.transportProtocol.val] ++ IsAddr.toBytes p.sourceAddr ++
    bytes16 p.sourcePort ++ IsAddr.toBytes p.dstAddr ++ bytes16 p.dstPort

/-- All that an encoder with a builder header puts in front of the payload. -/
def proxyBytes (p : QTunnelProxyOf Addr) : List UByte := p.headerBytes ++ p.protoData.data

end QTunnelProxyOf

namespace TLS13ApplicationData

variable {Addr : Type} [IsAddr Addr]

/-- The encoder with a builder header. -/
def generateObjectBytesPbProxyOf (pb : PacketBuilderData) (proxy : QTunnelProxyOf Addr)
    (data : List UByte) : Except Fault (List UByte) := do
  let proxySize ← proxy.getProxyDataSize
  let origSize := pb.originalSize + proxySize
  return PacketBuilderData.bytes ⟨pb.packetId, pb.offset, origSize⟩ ++
    (proxy.headerBytes ++ proxy.protoData.data ++ data)

/-- The encoder without a builder header asks for the bytes behind the length of the proto data. -/
def generateObjectBytesProxyOf (proxy : QTunnelProxyOf Addr) (data : List UByte) :
    Except Fault (List UByte) := do
  let protoData ← proxy.protoData.getProtoData
  return proxy.headerBytes ++ protoData ++ data

end TLS13ApplicationData

/-- A decoded packet: proxy data and the payload that is left behind it. -/
structure QTunnelDataOf (Addr : Type) extends QTunnelProxyOf Addr where
  data : List UByte

namespace QTunnelDataOf

variable {Addr : Type} [IsAddr Addr]

/-- Two addresses, each made from the given number of bytes, with their ports. -/
def readAddrs (data : List UByte) (size : ℕ) : Except Fault (Addr × UShort × Addr × UShort) := do
  let src ← slice data 0 size
  let srcAddr ← IsAddr.ofRange src
  let srcPort ← read16 data size
  let dst ← slice data (size + 2) (size + 2 + size)
  let dstAddr ← IsAddr.ofRange dst
  let dstPort ← read16 data (size + 2 + size)
  return (srcAddr, srcPort, dstAddr, dstPort)

/-- The number of bytes is a matter of the network protocol; unknown protocols read nothing. -/
def readAddrsByProtocol (net : NetProtocol) (data : List UByte) :
    Except Fault (Addr × UShort × Addr × UShort) :=
  if net = .IPv4 then readAddrs data 4
  else if net = .IPv6 then readAddrs data 16
  else .ok (IsAddr.default, 0, IsAddr.default, 0)

/-- The decoder. What it erases of the addresses is twice what the source address announces. -/
def ofBytes (data : List UByte) : Except Fault (QTunnelDataOf Addr) := do
  let net ← readAt data 0
  let transport ← readAt data 1
  let data ← eraseFront data 2
  let (src, srcPort, dst, dstPort) ← readAddrsByProtocol ⟨net⟩ data
  let data ← eraseFront data (IsAddr.getAddrSize src * 2 + 4)
  let size ← read16 data 0
  let fullSize := size.toNat + 2
  let protoBytes ← slice data 2 fullSize
  let payload ← eraseFront data fullSize
  return ⟨⟨⟨net⟩, ⟨transport⟩, src, srcPort, dst, dstPort, .ofLength size protoBytes⟩, payload⟩

end QTunnelDataOf

namespace QTunnelProxy

/-- The proxy data of the drivers. -/
def toOf (p : QTunnelProxy) : QTunnelProxyOf NetAddr :=
  ⟨p.netProtocol, p.transportProtocol, p.sourceAddr, p.sourcePort, p.dstAddr, p.dstPort, p.protoData⟩

theorem getProxyDataSize_toOf (p : QTunnelProxy) : p.toOf.getProxyDataSize = p.getProxyDataSize := rfl

/-- The encoder of the drivers is the one over addresses of any size. -/
theorem generateObjectBytes_toOf (pb : PacketBuilderData) (p : QTunnelProxy) (data : List UByte) :
    TLS13ApplicationData.generateObjectBytesPbProxyOf pb p.toOf data =
      TLS13ApplicationData.generateObjectBytesPbProxy pb p data := rfl

end QTunnelProxy

/-- The decoder of the drivers is the one over addresses of any size. -/
theorem QTunnelData.ofBytes_toOf (data : List UByte) :
    QTunnelDataOf.ofBytes data =
      (fun p => QTunnelDataOf.mk p.toQTunnelProxy.toOf p.data) <$> QTunnelData.ofBytes data := by
  have haddrs (net : NetProtocol) (rest : List UByte) :
      (QTunnelDataOf.readAddrsByProtocol net rest : Except Fault (NetAddr × _)) =
        QTunnelData.readAddrsByProtocol net rest := rfl
  simp only [QTunnelDataOf.ofBytes, QTunnelData.ofBytes, haddrs, map_bind, map_pure]
  rfl

end QVPN
