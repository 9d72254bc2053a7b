import QVPN.Structures.Generate

/-!
# Packets held by value

The forms of a packet that copy each header and the payload into a vector of its own. A TCP
header copies as many bytes as its data offset declares; a UDP header copies everything up to
the end it is given, and its size is the number of bytes copied.
-/

namespace QVPN

open BigEndian Checksum Memory

def Ipv4PacketLittleEndian.getSize (p : Ipv4PacketLittleEndian) : UShort :=
  UInt16.ofNat p.header.length

def TcpPacketLittleEndian.getSize (p : TcpPacketLittleEndian) : UShort :=
  UInt16.ofNat p.header.length

/-- Zero the checksum, add pseudo header, the words of the whole vector and payload, store the
complement. -/
def TcpPacketLittleEndian.recalculateTransportChecksum (p : TcpPacketLittleEndian)
    (pseudoHeader payload : List UByte) : Except Fault TcpPacketLittleEndian := do
  let header ← write16 p.header 16 0
  let sum ← sumWords pseudoHeader (wordPositions 12) 0
  let sum ← sumWords header (wordPositions header.length) sum
  let header ← write16 header 16 (complement (sumBytes payload sum))
  return ⟨header⟩

namespace UdpPacketLittleEndian

/-- The copy goes on to the given end; no size is read. -/
def parsePacket (mem : List UByte) (size : ℤ) : Except Fault UdpPacketLittleEndian := do
  let header ← slice mem 0 size
  return ⟨header⟩

def getSize (p : UdpPacketLittleEndian) : UShort := UInt16.ofNat p.header.length

/-- As for TCP, with the checksum at its place in a UDP header. -/
def recalculateTransportChecksum (p : UdpPacketLittleEndian) (pseudoHeader payload : List UByte) :
    Except Fault UdpPacketLittleEndian := do
  let header ← write16 p.header 6 0
  let sum ← sumWords pseudoHeader (wordPositions 12) 0
  let sum ← sumWords header (wordPositions header.length) sum
  let header ← write16 header 6 (complement (sumBytes payload sum))
  return ⟨header⟩

end UdpPacketLittleEndian

/-- A packet carrying TCP by value; `data` holds what `bytes` returned last. -/
structure Ipv4TcpFatPacket where
  net : Ipv4PacketLittleEndian
  transport : TcpPacketLittleEndian
  payload : List UByte
  data : List UByte
  deriving DecidableEq, Repr

namespace Ipv4TcpFatPacket

/-- Memory that starts at a packet of a given size. -/
def ofBytes (mem : List UByte) (size : ℕ) : Except Fault Ipv4TcpFatPacket := do
  let net ← Ipv4PacketLittleEndian.parsePacket mem
  let transport ← TcpPacketLittleEndian.parsePacket (mem.drop net.getSize.toNat)
  let payload ← slice mem (net.getSize.toNat + transport.getSize.toNat) size
  return ⟨net, transport, payload, []⟩

/-- The vector is cleared before the three parts are appended. -/
def bytes (p : Ipv4TcpFatPacket) : List UByte × Ipv4TcpFatPacket :=
  let data := p.net.header ++ p.transport.header ++ p.payload
  (data, { p with data })

end Ipv4TcpFatPacket

/-- A packet carrying UDP by value; `data` holds what `bytes` returned last. -/
structure Ipv4UdpFatPacket where
  net : Ipv4PacketLittleEndian
  transport : UdpPacketLittleEndian
  payload : List UByte
  data : List UByte
  deriving DecidableEq, Repr

namespace Ipv4UdpFatPacket

/-- The payload starts behind everything that the UDP header has copied. -/
def ofBytes (mem : List UByte) (size : ℕ) : Except Fault Ipv4UdpFatPacket := do
  let net ← Ipv4PacketLittleEndian.parsePacket mem
  let transport ← UdpPacketLittleEndian.parsePacket (mem.drop net.getSize.toNat)
    (size - net.getSize.toNat)
  let payload ← slice mem (net.getSize.toNat + transport.getSize.toNat) size
  return ⟨net, transport, payload, []⟩

/-- The three parts are appended to what the vector holds. -/
def bytes (p : Ipv4UdpFatPacket) : List UByte × Ipv4UdpFatPacket :=
  let data := p.data ++ p.net.header ++ p.transport.header ++ p.payload
  (data, { p with data })

end Ipv4UdpFatPacket

end QVPN
