import QVPN.Structures.Generate

/-!
# Packets made after a packet

The client injects a decoded packet in the shape of the packet it arrived in: the IPv4 header
of that packet with new addresses and length, a transport header made from the proto data, and
the decoded payload. Which transport header is made is a matter of the packet's class.
-/

namespace QVPN

open BigEndian Memory

namespace Ipv4PacketView

def setIpTotalLength (v : Ipv4PacketView) (length : UShort) : Except Fault Ipv4PacketView := do
  let header ← write16 v.header 2 length
  return { v with header }

/-- All bytes of the address are copied, however many it has. -/
def setSrcAddr (v : Ipv4PacketView) (addr : NetAddr) : Except Fault Ipv4PacketView := do
  let header ← overwrite v.header 12 addr.ip
  return { v with header }

def setDstAddr (v : Ipv4PacketView) (addr : NetAddr) : Except Fault Ipv4PacketView := do
  let header ← overwrite v.header 16 addr.ip
  return { v with header }

/-- The bytes of a header after a parent's, which lends all its other fields. -/
def generateObjectBytes (parent : Ipv4PacketView) (src dst : NetAddr) (totalLength : UShort) :
    Except Fault (List UByte) := do
  let bytes ← parent.toNetBytes
  let packet ← parsePacket bytes
  let packet ← packet.setSrcAddr src
  let packet ← packet.setDstAddr dst
  let packet ← packet.setIpTotalLength totalLength
  let packet ← packet.recalculateIpChecksum
  return packet.header

def generateObject (parent : Ipv4PacketView) (src dst : NetAddr) (totalLength : UShort) :
    Except Fault Ipv4PacketLittleEndian := do
  let bytes ← parent.generateObjectBytes src dst totalLength
  Ipv4PacketLittleEndian.parsePacket bytes

end Ipv4PacketView

/-- The number of words is or-ed into the data offset. -/
def TcpPacketView.setTransportLength (v : TcpPacketView) (bytesLength : UShort) :
    Except Fault TcpPacketView := do
  let b ← readAt v.tcpHeader 12
  let tcpHeader ← writeAt v.tcpHeader 12 (b ||| ((bytesLength / 4) <<< 4).toUInt8)
  return { v with tcpHeader }

def UdpPacketView.setTransportLength (v : UdpPacketView) (length : UShort) :
    Except Fault UdpPacketView := do
  let header ← write16 v.header 4 length
  return ⟨header⟩

/-- The IP header gets the size of all parts, the transport header its own size. -/
def FullPacketObject.recalculateLengths (packet : FullPacketObject) :
    Except Fault FullPacketObject := do
  match packet with
  | .tcp data => do
    let ip ← Ipv4PacketView.parsePacket data
    let transport ← TcpPacketView.parsePacket (data.drop ip.getSize.toNat)
    let netSize := 20 + ip.addHeaderSize
    let transportSize := 20 + transport.tcpOptionsSize
    let dataSize : ℤ := data.length - (ip.getSize.toNat + transport.getSize.toNat)
    let ip ← ip.setIpTotalLength (UInt16.ofInt (netSize + transportSize + dataSize))
    let transport ← TcpPacketView.setTransportLength
      { transport with tcpHeader := ip.header.drop ip.getSize.toNat } (UInt16.ofInt transportSize)
    return .tcp (ip.header.take ip.getSize.toNat ++ transport.tcpHeader)
  | .udp data => do
    let ip ← Ipv4PacketView.parsePacket data
    let transport : UdpPacketView := ⟨data.drop ip.getSize.toNat⟩
    let netSize := 20 + ip.addHeaderSize
    let dataSize : ℤ := data.length - (ip.getSize.toNat + transport.getSize.toNat)
    let ip ← ip.setIpTotalLength (UInt16.ofInt (netSize + 8 + dataSize))
    let transport ← UdpPacketView.setTransportLength ⟨ip.header.drop ip.getSize.toNat⟩ 8
    return .udp (ip.header.take ip.getSize.toNat ++ transport.header)
  | .dummy => return .dummy

namespace FullPacketView

/-- The packet for decoded proxy data and payload. The scheme the proto data is read with is
that of the packet's own protocol. -/
def newPacketByThis (packet : FullPacketView) (proxy : QTunnelProxy) (payload : List UByte) :
    Except Fault FullPacketObject :=
  match packet with
  | .tcp ip _ _ => do
    let scheme := QTunnelTCPViewScheme.ofBytes proxy.protoData.data
    let options ← scheme.getOptions
    let seq ← scheme.getSeq
    let ack ← scheme.getAck
    let offset ← scheme.getOffset
    let flags ← scheme.getFlags
    let window ← scheme.getWindow
    let urgent ← scheme.getUrgentPointer
    let transport ← TcpPacketLittleEndian.generateObject proxy.sourcePort proxy.dstPort seq ack
      offset flags window urgent options
    let totalSize := transport.header.length + payload.length
    let parent ← Ipv4PacketView.parsePacket ip.header
    let net ← parent.generateObject proxy.sourceAddr proxy.dstAddr (UInt16.ofNat totalSize)
    let packet ← FullPacketObject.ofTcp net.header transport.header payload
    let packet ← packet.recalculateLengths
    packet.recalculateChecksums
  | .udp ip _ _ => do
    let scheme : QTunnelUDPViewScheme := ⟨proxy.protoData.data⟩
    let length ← scheme.getLength
    let transport := UdpPacketLittleEndian.generateObject proxy.sourcePort proxy.dstPort length
    let totalSize := transport.header.length + payload.length
    let parent ← Ipv4PacketView.parsePacket ip.header
    let net ← parent.generateObject proxy.sourceAddr proxy.dstAddr (UInt16.ofNat totalSize)
    let packet ← FullPacketObject.ofUdp net.header transport.header payload
    let packet ← packet.recalculateLengths
    packet.recalculateChecksums
  | .dummy => .ok .dummy

def newPacketBytesByThis (packet : FullPacketView) (proxy : QTunnelProxy) (payload : List UByte) :
    Except Fault (List UByte) := do
  let packet ← packet.newPacketByThis proxy payload
  return packet.bytes

/-- The bytes of the packet that was made. -/
theorem newPacketBytesByThis_of_ok {packet : FullPacketView} {proxy : QTunnelProxy}
    {payload : List UByte} {object : FullPacketObject}
    (h : packet.newPacketByThis proxy payload = .ok object) :
    packet.newPacketBytesByThis proxy payload = .ok object.bytes := by
  rw [newPacketBytesByThis, h]
  rfl

end FullPacketView

end QVPN
