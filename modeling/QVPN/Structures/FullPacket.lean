import QVPN.Structures.Tcp
import QVPN.Structures.Tunnel

/-!
# Packets in place

The view classes of IPv4, UDP and whole packets, and the pre-parser that picks one of them
for received bytes. A packet view is made over memory that starts at the packet; the packet
ends at a given size, and what lies behind it can still be read through the header pointers.

An IPv4 view counts its options in words where it should count bytes; the offsets of the
transport header and the payload follow that count.
-/

namespace QVPN

open BigEndian Memory

/-- An IPv4 header in place. -/
structure Ipv4PacketView where
  header : List UByte
  addHeaderSize : ℤ
  deriving DecidableEq, Repr

namespace Ipv4PacketView

/-- The header length beyond five words is taken as a number of bytes. -/
def parsePacket (mem : List UByte) : Except Fault Ipv4PacketView := do
  let b ← readAt mem 0
  return ⟨mem, ((b &&& 0xF).toNat : ℤ) - 5⟩

def getSize (v : Ipv4PacketView) : UShort := UInt16.ofInt (20 + v.addHeaderSize)

def getIpVersion (v : Ipv4PacketView) : Except Fault NetProtocol := do
  let b ← readAt v.header 0
  return ⟨b >>> 4⟩

def getIpHeaderLength (v : Ipv4PacketView) : Except Fault UByte := do
  let b ← readAt v.header 0
  return b &&& 0xF

def getIpTotalLength (v : Ipv4PacketView) : Except Fault UShort := read16 v.header 2

def getIpProtocol (v : Ipv4PacketView) : Except Fault TransportProtocol := do
  let b ← readAt v.header 9
  return ⟨b⟩

def getSrcAddr (v : Ipv4PacketView) : Except Fault NetAddr := do
  let ip ← slice v.header 12 16
  return ⟨ip⟩

def getDstAddr (v : Ipv4PacketView) : Except Fault NetAddr := do
  let ip ← slice v.header 16 20
  return ⟨ip⟩

/-- Printing reads the twenty bytes of the fixed header. -/
def ipToFriendlyView (v : Ipv4PacketView) : Except Fault Unit := do
  let _ ← slice v.header 0 20
  return ()

/-- Twenty bytes of memory can be printed as an IPv4 header. -/
theorem ipToFriendlyView_of_le {mem : List UByte} (hmem : 20 ≤ mem.length) (size : ℤ) :
    ipToFriendlyView ⟨mem, size⟩ = .ok () := by
  obtain ⟨_, hfixed⟩ := slice_of_le mem (le_refl 0) (show (0 : ℤ) ≤ 20 by decide) (by omega)
  rw [ipToFriendlyView]
  dsimp only
  rw [hfixed]
  rfl

end Ipv4PacketView

/-- A UDP header in place. -/
structure UdpPacketView where
  header : List UByte
  deriving DecidableEq, Repr

namespace UdpPacketView

def getSize (_ : UdpPacketView) : UShort := 8

def getUdpSrcPort (v : UdpPacketView) : Except Fault UShort := read16 v.header 0

def getUdpDstPort (v : UdpPacketView) : Except Fault UShort := read16 v.header 2

def getUdpLength (v : UdpPacketView) : Except Fault UShort := read16 v.header 4

/-- Printing reads the eight header bytes. -/
def toUdpFriendlyView (v : UdpPacketView) : Except Fault Unit := do
  let _ ← slice v.header 0 8
  return ()

end UdpPacketView

/-- The tunnel form of a UDP header: a length prefix of two and the UDP length. -/
structure QTunnelUDPViewScheme where
  data : List UByte
  deriving DecidableEq, Repr

namespace QTunnelUDPViewScheme

def getLength (s : QTunnelUDPViewScheme) : Except Fault UShort := read16 s.data 2

def generateObjectBytes (v : UdpPacketView) : Except Fault (List UByte) := do
  let length ← v.getUdpLength
  return bytes16 2 ++ bytes16 length

end QTunnelUDPViewScheme

/-- What the pre-parser makes of a packet; payloads are ranges of the packet's memory. -/
inductive FullPacketView where
  | tcp (ip : Ipv4PacketView) (transport : TcpPacketView) (payload : ℤ × ℤ)
  | udp (ip : Ipv4PacketView) (transport : UdpPacketView) (payload : ℤ × ℤ)
  | dummy
  deriving DecidableEq, Repr

namespace FullPacketView

/-- An IPv4 packet carrying TCP. -/
def ipv4Tcp (mem : List UByte) (size : ℕ) : Except Fault FullPacketView := do
  let ip ← Ipv4PacketView.parsePacket mem
  let transport ← TcpPacketView.parsePacket (mem.drop ip.getSize.toNat)
  return .tcp ip transport (ip.getSize.toNat + transport.getSize.toNat, size)

/-- An IPv4 packet carrying UDP. -/
def ipv4Udp (mem : List UByte) (size : ℕ) : Except Fault FullPacketView := do
  let ip ← Ipv4PacketView.parsePacket mem
  let transport : UdpPacketView := ⟨mem.drop ip.getSize.toNat⟩
  return .udp ip transport (ip.getSize.toNat + transport.getSize.toNat, size)

/-- Memory that starts at a packet of a given size becomes one of the views. -/
def preParse (mem : List UByte) (size : ℕ) : Except Fault FullPacketView := do
  let b ← readAt mem 0
  if b >>> 4 &&& 0xF = NetProtocol.IPv4.val then
    let ip ← Ipv4PacketView.parsePacket mem
    let proto ← ip.getIpProtocol
    if proto = .TCP then ipv4Tcp mem size
    else if proto = .UDP then ipv4Udp mem size
    else return .dummy
  else
    return .dummy

def getProtocolVersion : FullPacketView → Except Fault NetProtocol
  | .tcp ip _ _ => ip.getIpVersion
  | .udp ip _ _ => ip.getIpVersion
  | .dummy => .ok .NET_UNDEFINED

def getTransportProtocol : FullPacketView → Except Fault TransportProtocol
  | .tcp ip _ _ => ip.getIpProtocol
  | .udp ip _ _ => ip.getIpProtocol
  | .dummy => .ok .TRANSPORT_UNDEFINED

def getSrcAddr : FullPacketView → Except Fault NetAddr
  | .tcp ip _ _ => ip.getSrcAddr
  | .udp ip _ _ => ip.getSrcAddr
  | .dummy => .ok .default

def getSrcPort : FullPacketView → Except Fault UShort
  | .tcp _ transport _ => transport.getTcpSrcPort
  | .udp _ transport _ => transport.getUdpSrcPort
  | .dummy => .ok 0

def getDstAddr : FullPacketView → Except Fault NetAddr
  | .tcp ip _ _ => ip.getDstAddr
  | .udp ip _ _ => ip.getDstAddr
  | .dummy => .ok .default

def getDstPort : FullPacketView → Except Fault UShort
  | .tcp _ transport _ => transport.getTcpDstPort
  | .udp _ transport _ => transport.getUdpDstPort
  | .dummy => .ok 0

/-- The scheme bytes of the transport header, or default proto data. -/
def collectProtoData : FullPacketView → Except Fault QTunnelProtoData
  | .tcp _ transport _ => do
    let view ← transport.toView
    let bytes ← QTunnelTCPViewScheme.generateObjectBytes view
    return ⟨bytes⟩
  | .udp _ transport _ => do
    let bytes ← QTunnelUDPViewScheme.generateObjectBytes transport
    return ⟨bytes⟩
  | .dummy => .ok .default

/-- The payload bytes; a dummy packet has the empty range of a null pointer. -/
def getPayload (mem : List UByte) : FullPacketView → Except Fault (List UByte)
  | .tcp _ _ payload => slice mem payload.1 payload.2
  | .udp _ _ payload => slice mem payload.1 payload.2
  | .dummy => .ok []

/-- From the begin of the network header to the end of the payload. -/
def bytes (mem : List UByte) : FullPacketView → Except Fault (List UByte)
  | .tcp _ _ payload => slice mem 0 payload.2
  | .udp _ _ payload => slice mem 0 payload.2
  | .dummy => .ok []

def isResetConnectionPacket : FullPacketView → Except Fault Bool
  | .tcp _ transport _ => transport.isResetConnectionPacket
  | .udp _ _ _ => .ok false
  | .dummy => .ok false

/-- Printing reads both headers and walks the TCP options. -/
def toPacketFriendlyView : FullPacketView → Except Fault Unit
  | .tcp ip transport _ => do
    let _ ← ip.ipToFriendlyView
    let _ ← transport.toTcpFriendlyView
    return ()
  | .udp ip transport _ => do
    let _ ← ip.ipToFriendlyView
    transport.toUdpFriendlyView
  | .dummy => .ok ()

end FullPacketView

/-- Proto data that some received packet yields. -/
def QTunnelProtoData.Collected (p : QTunnelProtoData) : Prop :=
  ∃ mem size packet, FullPacketView.preParse mem size = .ok packet ∧
    packet.collectProtoData = .ok p

/-- What a successful scheme of a TCP view consists of. -/
theorem QTunnelTCPViewScheme.generateObjectBytes_eq_ok {v : TcpPacketView} {bytes : List UByte}
    (h : generateObjectBytes v = .ok bytes) :
    ∃ body, bytes = bytes16 (UInt16.ofNat body.length) ++ body ∧ 
      body.length ≤ 15 + v.tcpOptionsSize.toNat := by
  unfold generateObjectBytes at h
  obtain ⟨seq, -, h⟩ := bind_eq_ok_iff.mp h
  obtain ⟨ack, -, h⟩ := bind_eq_ok_iff.mp h
  obtain ⟨flags, -, h⟩ := bind_eq_ok_iff.mp h
  obtain ⟨offset, -, h⟩ := bind_eq_ok_iff.mp h
  obtain ⟨window, -, h⟩ := bind_eq_ok_iff.mp h
  obtain ⟨urgent, -, h⟩ := bind_eq_ok_iff.mp h
  obtain ⟨options, hoptions, h⟩ := bind_eq_ok_iff.mp h
  have hlen := slice_length hoptions
  have hbytes := Except.ok.inj h
  refine ⟨bytes32 seq ++ bytes32 ack ++ [flags.getNs, flags.getWithoutNs, offset] ++
    bytes16 window ++ bytes16 urgent ++ options, ?_, ?_⟩
  · rw [← hbytes]
    simp only [List.append_assoc]
    congr 2
    simp only [List.length_append, bytes32_length, bytes16_length, List.length_cons,
      List.length_nil]
    rw [show 4 + (4 + (0 + 1 + 1 + 1 + (2 + (2 + options.length)))) = 15 + options.length by omega,
      UInt16.ofNat_add]
    rfl
  · simp only [List.length_append, bytes32_length, bytes16_length, List.length_cons,
      List.length_nil]
    omega

/-- What the pre-parser has looked at when it makes views. -/
theorem FullPacketView.preParse_cases {mem : List UByte} {size : ℕ} {packet : FullPacketView}
    (h : preParse mem size = .ok packet) (hpacket : packet ≠ .dummy) :
    mem.getD 0 0 >>> 4 = NetProtocol.IPv4.val ∧
      ((mem.getD 9 0 = TransportProtocol.TCP.val ∧ ipv4Tcp mem size = .ok packet) ∨
        (mem.getD 9 0 = TransportProtocol.UDP.val ∧ ipv4Udp mem size = .ok packet)) := by
  obtain ⟨b, hb, h⟩ := bind_eq_ok_iff.mp h
  rw [highNibble_and] at h
  split at h
  · next hversion =>
    obtain ⟨ip, hip, h⟩ := bind_eq_ok_iff.mp h
    obtain ⟨b', -, hip⟩ := bind_eq_ok_iff.mp hip
    cases Except.ok.inj hip
    obtain ⟨proto, hproto, h⟩ := bind_eq_ok_iff.mp h
    obtain ⟨c, hc, hproto⟩ := bind_eq_ok_iff.mp hproto
    cases Except.ok.inj hproto
    rw [getD_of_readAt hb, getD_of_readAt hc]
    refine ⟨hversion, ?_⟩
    split at h
    · next htcp => exact .inl ⟨congrArg TransportProtocol.val htcp, h⟩
    · split at h
      · next hudp => exact .inr ⟨congrArg TransportProtocol.val hudp, h⟩
      · exact absurd (Except.ok.inj h).symm hpacket
  · exact absurd (Except.ok.inj h).symm hpacket

/-- A TCP view declares at most forty option bytes. -/
theorem TcpPacketView.tcpOptionsSize_le {mem : List UByte} {v : TcpPacketView}
    (h : parsePacket mem = .ok v) : v.tcpOptionsSize.toNat ≤ 40 := by
  obtain ⟨b, -, h⟩ := bind_eq_ok_iff.mp h
  have hnibble := highNibble_le b
  cases Except.ok.inj h
  dsimp only
  omega

/-- A short body behind its size. -/
theorem QTunnelProtoData.wellFormed_of_body {body : List UByte} (h : body.length ≤ 55) :
    (⟨bytes16 (UInt16.ofNat body.length) ++ body⟩ : QTunnelProtoData).WellFormed ∧
      (bytes16 (UInt16.ofNat body.length) ++ body).length ≤ 57 := by
  refine ⟨⟨_, body, rfl, ofNat_toNat_of_le (by omega)⟩, ?_⟩
  rw [List.length_append, bytes16_length]
  omega

/-- The scheme of a TCP view announces its size, which is at most a TCP header in tunnel form. -/
theorem QTunnelTCPViewScheme.wellFormed {mem bytes : List UByte} {view : TcpPacketView}
    (hview : TcpPacketView.parsePacket mem = .ok view)
    (hbytes : generateObjectBytes view = .ok bytes) :
    (⟨bytes⟩ : QTunnelProtoData).WellFormed ∧ bytes.length ≤ 57 := by
  obtain ⟨body, rfl, hbody⟩ := generateObjectBytes_eq_ok hbytes
  have hoptions := TcpPacketView.tcpOptionsSize_le hview
  exact QTunnelProtoData.wellFormed_of_body (by omega)

/-- The scheme of a UDP view announces its two bytes. -/
theorem QTunnelUDPViewScheme.wellFormed {bytes : List UByte} {view : UdpPacketView}
    (hbytes : generateObjectBytes view = .ok bytes) :
    (⟨bytes⟩ : QTunnelProtoData).WellFormed ∧ bytes.length ≤ 57 := by
  obtain ⟨length, -, hlength⟩ := bind_eq_ok_iff.mp hbytes
  obtain rfl := Except.ok.inj hlength
  have hbody := QTunnelProtoData.wellFormed_of_body (show (bytes16 length).length ≤ 55 by simp)
  rw [bytes16_length] at hbody
  exact hbody

/-- Collected proto data announces its size, which is small. -/
theorem QTunnelProtoData.Collected.wellFormed {p : QTunnelProtoData} (h : p.Collected) :
    p.WellFormed ∧ p.data.length ≤ 57 := by
  obtain ⟨mem, size, packet, hparse, hcollect⟩ := h
  cases packet with
  | dummy =>
    obtain rfl := Except.ok.inj hcollect
    exact QTunnelProtoData.wellFormed_of_body (show ([] : List UByte).length ≤ 55 by simp)
  | udp ip transport payload =>
    obtain ⟨bytes, hbytes, hp⟩ := bind_eq_ok_iff.mp hcollect
    obtain rfl := Except.ok.inj hp
    exact QTunnelUDPViewScheme.wellFormed hbytes
  | tcp ip transport payload =>
    obtain ⟨view, hview, hcollect⟩ := bind_eq_ok_iff.mp hcollect
    obtain ⟨bytes, hbytes, hp⟩ := bind_eq_ok_iff.mp hcollect
    obtain rfl := Except.ok.inj hp
    exact QTunnelTCPViewScheme.wellFormed hview hbytes

end QVPN
