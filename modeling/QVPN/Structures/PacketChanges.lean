import QVPN.Structures.TcpSetters
import QVPN.Structures.UdpGetters

/-!
# Changing whole packets

Lengths that are recalculated, payloads that are replaced and proto data that is applied to a
packet. A packet by value changes its own vectors. Views keep the sizes they were made with, and
write through to the memory they share; a packet that owns one vector is a packet of views over
that vector.
-/

namespace QVPN

open BigEndian Memory

namespace Ipv4PacketLittleEndian

def setIpTotalLength (p : Ipv4PacketLittleEndian) (length : UShort) :
    Except Fault Ipv4PacketLittleEndian := do
  let header ← write16 p.header 2 length
  return ⟨header⟩

/-- All bytes of the address are copied, however many it has. -/
def setSrcAddr (p : Ipv4PacketLittleEndian) (addr : NetAddr) :
    Except Fault Ipv4PacketLittleEndian := do
  let header ← overwrite p.header 12 addr.ip
  return ⟨header⟩

def setDstAddr (p : Ipv4PacketLittleEndian) (addr : NetAddr) :
    Except Fault Ipv4PacketLittleEndian := do
  let header ← overwrite p.header 16 addr.ip
  return ⟨header⟩

end Ipv4PacketLittleEndian

def UdpPacketLittleEndian.setTransportLength (p : UdpPacketLittleEndian) (length : UShort) :
    Except Fault UdpPacketLittleEndian := do
  let header ← write16 p.header 4 length
  return ⟨header⟩

/-- Write the fields of a scheme one after the other, the options last. -/
def TcpPacketLittleEndian.setScheme (p : TcpPacketLittleEndian) (scheme : QTunnelTCPViewScheme) :
    Except Fault TcpPacketLittleEndian := do
  let seq ← scheme.getSeq
  let p ← p.setTcpSeqNumber seq
  let ack ← scheme.getAck
  let p ← p.setTcpAckNumber ack
  let flags ← scheme.getFlags
  let p ← p.setTcpFlags flags
  let offset ← scheme.getOffset
  let p ← p.setTcpOffset offset
  let window ← scheme.getWindow
  let p ← p.setTcpWindow window
  let urgent ← scheme.getUrgentPointer
  let p ← p.setTcpUrgent urgent
  let options ← scheme.getOptions
  p.setTcpOptions options

/-- Write the fields of a scheme one after the other, the options last. -/
def TcpPacketView.setScheme (v : TcpPacketView) (scheme : QTunnelTCPViewScheme) :
    Except Fault TcpPacketView := do
  let seq ← scheme.getSeq
  let v ← v.setTcpSeqNumber seq
  let ack ← scheme.getAck
  let v ← v.setTcpAckNumber ack
  let flags ← scheme.getFlags
  let v ← v.setTcpFlags flags
  let offset ← scheme.getOffset
  let v ← v.setTcpOffset offset
  let window ← scheme.getWindow
  let v ← v.setTcpWindow window
  let urgent ← scheme.getUrgentPointer
  let v ← v.setTcpUrgent urgent
  let options ← scheme.getOptions
  v.setTcpOptions options

namespace Ipv4TcpFatPacket

/-- A packet of three ranges, of which the headers take as much as they declare. -/
def ofParts (net transport payload : List UByte) : Except Fault Ipv4TcpFatPacket := do
  let net ← Ipv4PacketLittleEndian.parsePacket net
  let transport ← TcpPacketLittleEndian.parsePacket transport
  return ⟨net, transport, payload, []⟩

def recalculateChecksums (p : Ipv4TcpFatPacket) : Except Fault Ipv4TcpFatPacket := do
  let net ← p.net.recalculateIpChecksum
  let pseudo ← Ipv4UdpFatPacket.pseudoHeader net
  let transport ← p.transport.recalculateTransportChecksum pseudo p.payload
  return { p with net, transport }

def recalculateLengths (p : Ipv4TcpFatPacket) : Except Fault Ipv4TcpFatPacket := do
  let netSize := p.net.toBytes.length
  let transportSize := p.transport.toBytes.length
  let dataSize := p.payload.length
  let net ← p.net.setIpTotalLength (UInt16.ofNat (netSize + transportSize + dataSize))
  let transport ← p.transport.setTransportLength (UInt16.ofNat transportSize)
  return { p with net, transport }

/-- The size of the payload is handed to the transport header first. -/
def newPacketByPayload (p : Ipv4TcpFatPacket) (payload : List UByte) :
    Except Fault Ipv4TcpFatPacket := do
  let fp ← ofParts p.net.toBytes p.transport.toBytes payload
  let transport ← fp.transport.setTransportLength (UInt16.ofNat payload.length)
  let fp ← recalculateLengths { fp with transport }
  fp.recalculateChecksums

def collectProtoData (p : Ipv4TcpFatPacket) : Except Fault QTunnelProtoData := do
  let view ← TcpPacketView.parsePacket p.transport.header
  let bytes ← QTunnelTCPViewScheme.generateObjectBytes view
  return ⟨bytes⟩

def setQtunnelProtoData (p : Ipv4TcpFatPacket) (data : QTunnelProtoData) :
    Except Fault Ipv4TcpFatPacket := do
  let transport ← p.transport.setScheme (.ofBytes data.data)
  return { p with transport }

end Ipv4TcpFatPacket

namespace Ipv4UdpFatPacket

/-- A packet of three ranges, of which the IP header takes as much as it declares. -/
def ofParts (net transport payload : List UByte) : Except Fault Ipv4UdpFatPacket := do
  let net ← Ipv4PacketLittleEndian.parsePacket net
  let transport ← UdpPacketLittleEndian.parsePacket transport transport.length
  return ⟨net, transport, payload, []⟩

def recalculateLengths (p : Ipv4UdpFatPacket) : Except Fault Ipv4UdpFatPacket := do
  let netSize := p.net.toBytes.length
  let transportSize := p.transport.toBytes.length
  let dataSize := p.payload.length
  let net ← p.net.setIpTotalLength (UInt16.ofNat (netSize + transportSize + dataSize))
  let transport ← p.transport.setTransportLength (UInt16.ofNat transportSize)
  return { p with net, transport }

/-- The size of the payload is handed to the transport header first. -/
def newPacketByPayload (p : Ipv4UdpFatPacket) (payload : List UByte) :
    Except Fault Ipv4UdpFatPacket := do
  let fp ← ofParts p.net.toBytes p.transport.toBytes payload
  let transport ← fp.transport.setTransportLength (UInt16.ofNat payload.length)
  let fp ← recalculateLengths { fp with transport }
  fp.recalculateChecksums

def collectProtoData (p : Ipv4UdpFatPacket) : Except Fault QTunnelProtoData := do
  let bytes ← QTunnelUDPViewScheme.generateObjectBytes ⟨p.transport.header⟩
  return ⟨bytes⟩

/-- The scheme is made, and nothing is taken over from it. -/
def setQtunnelProtoData (p : Ipv4UdpFatPacket) (_ : QTunnelProtoData) : Ipv4UdpFatPacket := p

end Ipv4UdpFatPacket

namespace FullPacketView

/-- The memory behind the IP header has been written to. -/
def writeThrough (ip : Ipv4PacketView) (transport : List UByte) : Ipv4PacketView :=
  { ip with header := ip.header.take ip.getSize.toNat ++ transport }

def setTransportLength : FullPacketView → UShort → Except Fault FullPacketView
  | .tcp ip transport payload, length => do
    let transport ← transport.setTransportLength length
    return .tcp (writeThrough ip transport.tcpHeader) transport payload
  | .udp ip transport payload, length => do
    let transport ← transport.setTransportLength length
    return .udp (writeThrough ip transport.header) transport payload
  | .dummy, _ => .ok .dummy

def recalculateLengths : FullPacketView → Except Fault FullPacketView
  | .tcp ip transport payload => do
    let netSize := 20 + ip.addHeaderSize
    let transportSize := 20 + transport.tcpOptionsSize
    let dataSize := payload.2 - payload.1
    let ip ← ip.setIpTotalLength (UInt16.ofInt (netSize + transportSize + dataSize))
    let transport ← TcpPacketView.setTransportLength
      { transport with tcpHeader := ip.header.drop ip.getSize.toNat } (UInt16.ofInt transportSize)
    return .tcp (writeThrough ip transport.tcpHeader) transport payload
  | .udp ip _ payload => do
    let netSize := 20 + ip.addHeaderSize
    let dataSize := payload.2 - payload.1
    let ip ← ip.setIpTotalLength (UInt16.ofInt (netSize + 8 + dataSize))
    let transport ← UdpPacketView.setTransportLength ⟨ip.header.drop ip.getSize.toNat⟩ 8
    return .udp (writeThrough ip transport.header) transport payload
  | .dummy => .ok .dummy

/-- The new packet owns its bytes; its views are made before the lengths are set. -/
def newPacketByPayload (packet : FullPacketView) (payload : List UByte) :
    Except Fault FullPacketView :=
  match packet with
  | .tcp ip transport _ => do
    let net ← ip.toNetBytes
    let transport ← transport.toTransportBytes
    let object ← FullPacketObject.ofTcp net transport payload
    let fp ← object.view
    let fp ← fp.setTransportLength (UInt16.ofNat payload.length)
    let fp ← fp.recalculateLengths
    fp.recalculateChecksums
  | .udp ip transport _ => do
    let net ← ip.toNetBytes
    let transport ← transport.toTransportBytes
    let object ← FullPacketObject.ofUdp net transport payload
    let fp ← object.view
    let fp ← fp.setTransportLength (UInt16.ofNat payload.length)
    let fp ← fp.recalculateLengths
    fp.recalculateChecksums
  | .dummy => .ok .dummy

/-- Only a TCP header takes over anything. -/
def setQtunnelProtoData : FullPacketView → QTunnelProtoData → Except Fault FullPacketView
  | .tcp ip transport payload, data => do
    let transport ← transport.setScheme (.ofBytes data.data)
    return .tcp (writeThrough ip transport.tcpHeader) transport payload
  | packet, _ => .ok packet

end FullPacketView

end QVPN
