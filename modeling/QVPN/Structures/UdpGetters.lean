import QVPN.Structures.Ipv4Getters
import QVPN.Structures.NewPacket

/-!
# Reading UDP packets

The getters of the two UDP classes, the recalculation of checksums in whole packets, and the
packets that start with their transport header. A packet by value hands its own payload vector
to the checksum; a packet of views hands over the range behind its header.
-/

namespace QVPN

open BigEndian Checksum Memory

namespace UdpPacketLittleEndian

def getUdpSrcPort (p : UdpPacketLittleEndian) : Except Fault UShort := read16 p.header 0

def getUdpDstPort (p : UdpPacketLittleEndian) : Except Fault UShort := read16 p.header 2

def getUdpLength (p : UdpPacketLittleEndian) : Except Fault UShort := read16 p.header 4

def getUdpChecksum (p : UdpPacketLittleEndian) : Except Fault UShort := read16 p.header 6

def toBytes (p : UdpPacketLittleEndian) : List UByte := p.header

end UdpPacketLittleEndian

def UdpPacketView.getUdpChecksum (v : UdpPacketView) : Except Fault UShort := read16 v.header 6

/-- The pseudo header's length is what the IP header leaves of the total length. -/
def Ipv4UdpFatPacket.pseudoHeader (net : Ipv4PacketLittleEndian) : Except Fault (List UByte) := do
  let total ← net.getIpTotalLength
  let words ← net.getIpHeaderLength
  let src ← net.getSrcAddr
  let dst ← net.getDstAddr
  let proto ← net.getIpProtocol
  return TransportIpv4PseudoHeader.data src dst proto (total - words.toUInt16 * 4)

def Ipv4UdpFatPacket.recalculateChecksums (p : Ipv4UdpFatPacket) :
    Except Fault Ipv4UdpFatPacket := do
  let net ← p.net.recalculateIpChecksum
  let pseudo ← pseudoHeader net
  let transport ← p.transport.recalculateTransportChecksum pseudo p.payload
  return { p with net, transport }

/-- The recalculations write into the memory the views are made over. -/
def FullPacketView.recalculateChecksums : FullPacketView → Except Fault FullPacketView
  | .tcp ip transport payload => do
    let ip' ← ip.recalculateIpChecksum
    let data ← slice ip'.header payload.1 payload.2
    let pseudo ← FullPacketObject.pseudoHeader ip'
    let transport ← TcpPacketView.recalculateTransportChecksum
      { transport with tcpHeader := ip'.header.drop ip.getSize.toNat } pseudo data
    return .tcp { ip' with header := ip'.header.take ip.getSize.toNat ++ transport.tcpHeader }
      transport payload
  | .udp ip _ payload => do
    let ip' ← ip.recalculateIpChecksum
    let data ← slice ip'.header payload.1 payload.2
    let pseudo ← FullPacketObject.pseudoHeader ip'
    let transport ← UdpPacketView.recalculateTransportChecksum
      ⟨ip'.header.drop ip.getSize.toNat⟩ pseudo data
    return .udp { ip' with header := ip'.header.take ip.getSize.toNat ++ transport.header }
      transport payload
  | .dummy => .ok .dummy

/-- A UDP datagram by value; `data` holds what `bytes` returned last. -/
structure NoNetPacketUdpFatObject where
  transport : UdpPacketLittleEndian
  payload : List UByte
  data : List UByte
  deriving DecidableEq, Repr

/-- A UDP datagram in place. The class that also keeps a copy of the bytes makes its views over
the given memory all the same. -/
structure NoNetPacketUdpView where
  transport : UdpPacketView
  payload : ℤ × ℤ
  deriving DecidableEq, Repr

/-- A pseudo header is made for IPv4 addresses only. -/
def NoNetPacket.pseudoHeader (src dst : NetAddr) (length : UShort) :
    Except Fault (Option (List UByte)) :=
  if src.getAddrFamily = .IPv4 then do
    let srcBytes ← src.toIpv4
    let dstBytes ← dst.toIpv4
    return some (TransportIpv4PseudoHeader.data ⟨srcBytes⟩ ⟨dstBytes⟩ .UDP length)
  else return none

namespace NoNetPacketUdpFatObject

def ofBytes (mem : List UByte) (size : ℕ) : Except Fault NoNetPacketUdpFatObject := do
  let transport ← UdpPacketLittleEndian.parsePacket mem size
  let payload ← slice mem transport.getSize.toNat size
  return ⟨transport, payload, []⟩

/-- Both parts are appended to what the vector holds. -/
def bytes (p : NoNetPacketUdpFatObject) : List UByte × NoNetPacketUdpFatObject :=
  let data := p.data ++ p.transport.header ++ p.payload
  (data, { p with data })

def recalculateChecksums (p : NoNetPacketUdpFatObject) (src dst : NetAddr) (length : UShort) :
    Except Fault NoNetPacketUdpFatObject := do
  match ← NoNetPacket.pseudoHeader src dst length with
  | some pseudo => do
    let transport ← p.transport.recalculateTransportChecksum pseudo p.payload
    return { p with transport }
  | none => return p

end NoNetPacketUdpFatObject

namespace NoNetPacketUdpView

def ofBytes (mem : List UByte) (size : ℕ) : NoNetPacketUdpView :=
  ⟨⟨mem⟩, (UdpPacketView.getSize ⟨mem⟩).toNat, size⟩

def getPayload (v : NoNetPacketUdpView) : Except Fault (List UByte) :=
  slice v.transport.header v.payload.1 v.payload.2

/-- From the begin of the transport header to the end of the payload. -/
def bytes (v : NoNetPacketUdpView) : Except Fault (List UByte) :=
  slice v.transport.header 0 v.payload.2

def recalculateChecksums (v : NoNetPacketUdpView) (src dst : NetAddr) (length : UShort) :
    Except Fault NoNetPacketUdpView := do
  match ← NoNetPacket.pseudoHeader src dst length with
  | some pseudo => do
    let payload ← v.getPayload
    let transport ← v.transport.recalculateTransportChecksum pseudo payload
    return { v with transport }
  | none => return v

end NoNetPacketUdpView

end QVPN
