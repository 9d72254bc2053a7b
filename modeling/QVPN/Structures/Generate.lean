import QVPN.Lib.Checksum
import QVPN.Structures.FullPacket

/-!
# Generated packets

The headers the server makes for a decoded packet, and the whole packet it keeps in one byte
vector with views into it. A header object copies its bytes; a generated packet is seen
through the same view classes as a received one, so its getters are theirs.

Of the checksums only the bytes they are stored in and the bytes they are computed from are
modelled as the code has them; the pseudo header is the list of its twelve bytes.
-/

namespace QVPN

open BigEndian Checksum Memory

/-- The generation strategy of IPv4 headers: its only state is the last identification. -/
structure Ipv4DefaultGenStrategy where
  lastId : UShort
  deriving DecidableEq, Repr

namespace Ipv4DefaultGenStrategy

def default : Ipv4DefaultGenStrategy := ⟨0⟩

def getVer : NetProtocol := .IPv4

def getHeaderLength : UByte := 5

def getQos : UByte := 0

def getId (s : Ipv4DefaultGenStrategy) : UShort := s.lastId

def getAdditionalHeaders : List UByte := []

/-- The next identification, and the strategy that remembers it. -/
def getNextId (s : Ipv4DefaultGenStrategy) : UShort × Ipv4DefaultGenStrategy :=
  (s.lastId + 1, ⟨s.lastId + 1⟩)

def getTtl : UByte := 64

end Ipv4DefaultGenStrategy

/-- Zero the checksum, add the fixed header by words and the additional header, and store the
complement. The loop over the additional header advances by single bytes. -/
def Ipv4PacketView.recalculateIpChecksum (v : Ipv4PacketView) : Except Fault Ipv4PacketView := do
  let header ← write16 v.header 10 0
  let sum ← sumWords header (wordPositions 20) 0
  let sum ← sumWords (header.drop 20) (List.range v.addHeaderSize.toNat) sum
  let header ← write16 header 10 (complement sum)
  return { v with header }

def Ipv4PacketView.toNetBytes (v : Ipv4PacketView) : Except Fault (List UByte) :=
  slice v.header 0 (20 + v.addHeaderSize)

/-- The twelve bytes of the pseudo header. -/
def TransportIpv4PseudoHeader.data (src dst : NetAddr) (proto : TransportProtocol)
    (length : UShort) : List UByte :=
  src.ip ++ dst.ip ++ [0, proto.val] ++ bytes16 length

/-- Zero the checksum, add pseudo header, header, options and payload, store the complement. -/
def TcpPacketView.recalculateTransportChecksum (v : TcpPacketView) (pseudoHeader payload : List UByte) :
    Except Fault TcpPacketView := do
  let header ← write16 v.tcpHeader 16 0
  let sum ← sumWords pseudoHeader (wordPositions 12) 0
  let sum ← sumWords header (wordPositions 20) sum
  let sum ← sumWords (header.drop 20) (wordPositions v.tcpOptionsSize.toNat) sum
  let header ← write16 header 16 (complement (sumBytes payload sum))
  return { v with tcpHeader := header }

def TcpPacketView.toTransportBytes (v : TcpPacketView) : Except Fault (List UByte) :=
  slice v.tcpHeader 0 (20 + v.tcpOptionsSize)

/-- Zero the checksum, add pseudo header, header and payload, store the complement. -/
def UdpPacketView.recalculateTransportChecksum (v : UdpPacketView) (pseudoHeader payload : List UByte) :
    Except Fault UdpPacketView := do
  let header ← write16 v.header 6 0
  let sum ← sumWords pseudoHeader (wordPositions 12) 0
  let sum ← sumWords header (wordPositions 8) sum
  let header ← write16 header 6 (complement (sumBytes payload sum))
  return ⟨header⟩

def UdpPacketView.toTransportBytes (v : UdpPacketView) : Except Fault (List UByte) :=
  slice v.header 0 8

/-- An IPv4 header held by value. -/
structure Ipv4PacketLittleEndian where
  header : List UByte
  deriving DecidableEq, Repr

namespace Ipv4PacketLittleEndian

/-- Copy twenty bytes, then as many words as the copied header length declares. -/
def parsePacket (mem : List UByte) : Except Fault Ipv4PacketLittleEndian := do
  let fixed ← slice mem 0 20
  let b ← readAt fixed 0
  let additional ← slice mem 20 (20 + (((b &&& 0xF).toNat : ℤ) - 5) * 4)
  return ⟨fixed ++ additional⟩

/-- The header bytes for a payload of `totalLength` bytes. A new identification is taken only
for an unfragmented packet, and only once the last one is not zero. -/
def generateObjectBytes (strategy : Ipv4DefaultGenStrategy) (src dst : NetAddr)
    (proto : TransportProtocol) (totalLength : UShort) (df mf : Bool) (offset : UShort) :
    Except Fault (List UByte × Ipv4DefaultGenStrategy) := do
  let addHeaders := Ipv4DefaultGenStrategy.getAdditionalHeaders
  let headerLength := Ipv4DefaultGenStrategy.getHeaderLength.toNat + addHeaders.length / 4
  let firstByte : UByte :=
    Ipv4DefaultGenStrategy.getVer.val <<< 4 ||| (UInt8.ofNat headerLength &&& 0xF)
  let len : UShort := UInt16.ofNat (totalLength.toNat + headerLength * 4)
  let (id, strategy) :=
    if mf = false ∧ offset = 0 ∧ strategy.getId ≠ 0 then strategy.getNextId
    else (strategy.getId, strategy)
  let flagsOffset : UByte := df.toUInt8 <<< 6 ||| mf.toUInt8 <<< 5 ||| ((offset >>> 11).toUInt8 &&& 0x1F)
  let srcBytes ← src.toIpv4
  let dstBytes ← dst.toIpv4
  let bytes := [firstByte, Ipv4DefaultGenStrategy.getQos] ++ bytes16 len ++ bytes16 id ++
    [flagsOffset, offset.toUInt8, Ipv4DefaultGenStrategy.getTtl, proto.val, 0, 0] ++ srcBytes ++
    dstBytes ++ addHeaders
  let view ← Ipv4PacketView.parsePacket bytes
  let view ← view.recalculateIpChecksum
  return (view.header, strategy)

def generateObject (strategy : Ipv4DefaultGenStrategy) (src dst : NetAddr)
    (proto : TransportProtocol) (totalLength : UShort) (df mf : Bool) (offset : UShort) :
    Except Fault (Ipv4PacketLittleEndian × Ipv4DefaultGenStrategy) := do
  let (bytes, strategy) ← generateObjectBytes strategy src dst proto totalLength df mf offset
  let object ← parsePacket bytes
  return (object, strategy)

end Ipv4PacketLittleEndian

/-- A UDP header held by value. -/
structure UdpPacketLittleEndian where
  header : List UByte
  deriving DecidableEq, Repr

namespace UdpPacketLittleEndian

def generateObjectBytes (srcPort dstPort length : UShort) : List UByte :=
  bytes16 srcPort ++ bytes16 dstPort ++ bytes16 length ++ [0, 0]

def generateObject (srcPort dstPort length : UShort) : UdpPacketLittleEndian :=
  ⟨generateObjectBytes srcPort dstPort length⟩

/-- The UDP length is taken for a number of words. -/
def getTransportLength (p : UdpPacketLittleEndian) : Except Fault UShort := do
  let length ← read16 p.header 4
  return length * 4

end UdpPacketLittleEndian

inductive NetPacketObject where
  | ipv4 (packet : Ipv4PacketLittleEndian)
  | dummy
  deriving DecidableEq, Repr

/-- The bytes of a view of the header; a dummy has the empty range of a null pointer. -/
def NetPacketObject.toBytes : NetPacketObject → Except Fault (List UByte)
  | .ipv4 packet => do
    let view ← Ipv4PacketView.parsePacket packet.header
    view.toNetBytes
  | .dummy => .ok []

inductive TransportPacketObject where
  | tcp (packet : TcpPacketLittleEndian)
  | udp (packet : UdpPacketLittleEndian)
  | dummy
  deriving DecidableEq, Repr

namespace TransportPacketObject

def getTransportLength : TransportPacketObject → Except Fault UShort
  | .tcp packet => packet.getTransportLength
  | .udp packet => packet.getTransportLength
  | .dummy => .ok 0

def toBytes : TransportPacketObject → Except Fault (List UByte)
  | .tcp packet => do
    let view ← TcpPacketView.parsePacket packet.header
    view.toTransportBytes
  | .udp packet => UdpPacketView.toTransportBytes ⟨packet.header⟩
  | .dummy => .ok []

end TransportPacketObject

/-- A packet in its own byte vector. The views into the vector are made once; no checksum is
stored in a byte that a view takes its size from. -/
inductive FullPacketObject where
  | tcp (data : List UByte)
  | udp (data : List UByte)
  | dummy
  deriving DecidableEq, Repr

namespace FullPacketObject

/-- The views into the vector. -/
def view : FullPacketObject → Except Fault FullPacketView
  | .tcp data => FullPacketView.ipv4Tcp data data.length
  | .udp data => FullPacketView.ipv4Udp data data.length
  | .dummy => .ok .dummy

/-- Headers and payload one behind the other. The constructor of a TCP packet first makes views
of the two header ranges, and so reads a byte of each. -/
def ofTcp (net transport payload : List UByte) : Except Fault FullPacketObject := do
  let _ ← Ipv4PacketView.parsePacket net
  let _ ← TcpPacketView.parsePacket transport
  let packet := tcp (net ++ transport ++ payload)
  let _ ← packet.view
  return packet

def ofUdp (net transport payload : List UByte) : Except Fault FullPacketObject := do
  let packet := udp (net ++ transport ++ payload)
  let _ ← packet.view
  return packet

/-- The pseudo header's length is what the IP header leaves of the total length. -/
def pseudoHeader (ip : Ipv4PacketView) : Except Fault (List UByte) := do
  let total ← ip.getIpTotalLength
  let words ← ip.getIpHeaderLength
  let src ← ip.getSrcAddr
  let dst ← ip.getDstAddr
  let proto ← ip.getIpProtocol
  return TransportIpv4PseudoHeader.data src dst proto (total - words.toUInt16 * 4)

def recalculateChecksums (packet : FullPacketObject) : Except Fault FullPacketObject := do
  match packet with
  | .tcp data => do
    let ip ← Ipv4PacketView.parsePacket data
    let ip ← ip.recalculateIpChecksum
    let transport ← TcpPacketView.parsePacket (ip.header.drop ip.getSize.toNat)
    let payload ← slice ip.header (ip.getSize.toNat + transport.getSize.toNat) ip.header.length
    let pseudo ← pseudoHeader ip
    let transport ← transport.recalculateTransportChecksum pseudo payload
    return .tcp (ip.header.take ip.getSize.toNat ++ transport.tcpHeader)
  | .udp data => do
    let ip ← Ipv4PacketView.parsePacket data
    let ip ← ip.recalculateIpChecksum
    let transport : UdpPacketView := ⟨ip.header.drop ip.getSize.toNat⟩
    let payload ← slice ip.header (ip.getSize.toNat + transport.getSize.toNat) ip.header.length
    let pseudo ← pseudoHeader ip
    let transport ← transport.recalculateTransportChecksum pseudo payload
    return .udp (ip.header.take ip.getSize.toNat ++ transport.header)
  | .dummy => return .dummy

/-- From the begin of the network header to the end of the payload. -/
def bytes : FullPacketObject → List UByte
  | .tcp data => data
  | .udp data => data
  | .dummy => []

def toPacketFriendlyView (packet : FullPacketObject) : Except Fault Unit := do
  let view ← packet.view
  view.toPacketFriendlyView

def isResetConnectionPacket (packet : FullPacketObject) : Except Fault Bool := do
  let view ← packet.view
  view.isResetConnectionPacket

end FullPacketObject

/-- The checksum of an IP header is stored in bytes 10 and 11. -/
theorem Ipv4PacketView.recalculateIpChecksum_frame {v v' : Ipv4PacketView}
    (pre mid rest : List UByte) (hheader : v.header = pre ++ mid ++ rest) (hpre : pre.length ≤ 10)
    (hmid : 11 < pre.length + mid.length) (h : v.recalculateIpChecksum = .ok v') :
    v'.addHeaderSize = v.addHeaderSize ∧
      ∃ mid', mid'.length = mid.length ∧ v'.header = pre ++ mid' ++ rest := by
  obtain ⟨header, hzero, h⟩ := bind_eq_ok_iff.mp h
  obtain ⟨sum, -, h⟩ := bind_eq_ok_iff.mp h
  obtain ⟨sum', -, h⟩ := bind_eq_ok_iff.mp h
  obtain ⟨header', hstore, h⟩ := bind_eq_ok_iff.mp h
  cases Except.ok.inj h
  rw [hheader] at hzero
  obtain ⟨mid₁, hlen₁, rfl⟩ := write16_middle hpre hmid hzero
  obtain ⟨mid₂, hlen₂, rfl⟩ := write16_middle hpre (by omega) hstore
  exact ⟨rfl, mid₂, hlen₂.trans hlen₁, rfl⟩

/-- The checksum of a TCP header is stored in bytes 16 and 17. -/
theorem TcpPacketView.recalculateTransportChecksum_frame {v v' : TcpPacketView}
    {pseudo payload pre rest : List UByte} (hheader : v.tcpHeader = pre ++ rest)
    (hpre : pre.length ≤ 16) (h : v.recalculateTransportChecksum pseudo payload = .ok v') :
    ∃ rest', v'.tcpHeader = pre ++ rest' := by
  obtain ⟨header, hzero, h⟩ := bind_eq_ok_iff.mp h
  obtain ⟨_, -, h⟩ := bind_eq_ok_iff.mp h
  obtain ⟨_, -, h⟩ := bind_eq_ok_iff.mp h
  obtain ⟨_, -, h⟩ := bind_eq_ok_iff.mp h
  obtain ⟨header', hstore, h⟩ := bind_eq_ok_iff.mp h
  cases Except.ok.inj h
  rw [hheader] at hzero
  obtain ⟨rest₁, rfl⟩ := write16_behind hpre hzero
  exact write16_behind hpre hstore

/-- The checksum of a UDP header is stored in bytes 6 and 7. -/
theorem UdpPacketView.recalculateTransportChecksum_frame {v v' : UdpPacketView}
    {pseudo payload pre rest : List UByte} (hheader : v.header = pre ++ rest)
    (hpre : pre.length ≤ 6) (h : v.recalculateTransportChecksum pseudo payload = .ok v') :
    ∃ rest', v'.header = pre ++ rest' := by
  obtain ⟨header, hzero, h⟩ := bind_eq_ok_iff.mp h
  obtain ⟨_, -, h⟩ := bind_eq_ok_iff.mp h
  obtain ⟨_, -, h⟩ := bind_eq_ok_iff.mp h
  obtain ⟨header', hstore, h⟩ := bind_eq_ok_iff.mp h
  cases Except.ok.inj h
  rw [hheader] at hzero
  obtain ⟨rest₁, rfl⟩ := write16_behind hpre hzero
  exact write16_behind hpre hstore

/-- A generated IPv4 header has five words, and ends with the two addresses. -/
theorem Ipv4PacketLittleEndian.generateObjectBytes_addrs
    {strategy strategy' : Ipv4DefaultGenStrategy} {src dst : NetAddr} {proto : TransportProtocol}
    {totalLength offset : UShort} {df mf : Bool} {bytes : List UByte}
    (h : generateObjectBytes strategy src dst proto totalLength df mf offset =
      .ok (bytes, strategy')) :
    ∃ mid s d, mid.length = 11 ∧ src.toIpv4 = .ok s ∧ dst.toIpv4 = .ok d ∧
      bytes = [0x45] ++ mid ++ (s ++ d) := by
  unfold generateObjectBytes at h
  obtain ⟨s, hs, h⟩ := bind_eq_ok_iff.mp h
  obtain ⟨d, hd, h⟩ := bind_eq_ok_iff.mp h
  obtain ⟨view, hview, h⟩ := bind_eq_ok_iff.mp h
  obtain ⟨view', hrecalc, h⟩ := bind_eq_ok_iff.mp h
  cases Except.ok.inj h
  cases Except.ok.inj hview
  obtain ⟨-, mid, hmid, hheader⟩ := Ipv4PacketView.recalculateIpChecksum_frame [0x45] _
    (s ++ d) (by
      dsimp only [Ipv4DefaultGenStrategy.getAdditionalHeaders]
      rw [List.append_nil, ← List.append_assoc _ s d]
      rfl) (by decide) (by simp) hrecalc
  exact ⟨mid, s, d, hmid, hs, hd, hheader⟩

/-- A header of twenty bytes that declares five words is copied and viewed as it is. -/
theorem NetPacketObject.toBytes_generated {packet : Ipv4PacketLittleEndian}
    {bytes : List UByte} (rest : List UByte) (hbytes : bytes = 0x45 :: rest) (hlen : bytes.length = 20)
    (h : Ipv4PacketLittleEndian.parsePacket bytes = .ok packet) :
    (NetPacketObject.ipv4 packet).toBytes = .ok bytes := by
  have hfixed : slice bytes 0 20 = .ok bytes := slice_all bytes 20 (by rw [hlen]; rfl)
  have hnone : slice bytes 20 (20 + ((((0x45 : UByte) &&& 0xF).toNat : ℤ) - 5) * 4) = .ok [] := by
    have h := slice_suffix bytes [] 20 20 (by rw [hlen]; rfl) (by rw [hlen]; rfl)
    rw [List.append_nil] at h
    exact h
  have hfirst : readAt bytes 0 = .ok 0x45 := by
    rw [hbytes]
    rfl
  rw [Ipv4PacketLittleEndian.parsePacket, hfixed, ok_bind, hfirst, ok_bind, hnone, ok_bind,
    List.append_nil] at h
  cases Except.ok.inj h
  rw [toBytes, Ipv4PacketView.parsePacket, hfirst, ok_bind]
  exact hfixed

/-- A generated TCP header begins with the ports. -/
theorem TransportPacketObject.toBytes_tcp {srcPort dstPort windowSize urgent : UShort}
    {seq ack : UInt} {offset : UByte} {flags : TcpFlagsObject} {options : List UByte}
    {packet : TcpPacketLittleEndian} {bytes : List UByte}
    (h : TcpPacketLittleEndian.generateObject srcPort dstPort seq ack offset flags windowSize urgent
      options = .ok packet) (hbytes : (TransportPacketObject.tcp packet).toBytes = .ok bytes) :
    ∃ rest, bytes = bytes16 srcPort ++ bytes16 dstPort ++ rest := by
  obtain ⟨fixed, hfixed, h⟩ := bind_eq_ok_iff.mp h
  obtain ⟨b, hb, h⟩ := bind_eq_ok_iff.mp h
  obtain ⟨copied, hcopied, h⟩ := bind_eq_ok_iff.mp h
  cases Except.ok.inj h
  have hlen := slice_length hfixed
  obtain ⟨view, hview, hslice⟩ := bind_eq_ok_iff.mp hbytes
  obtain ⟨b', hb', hview⟩ := bind_eq_ok_iff.mp hview
  cases Except.ok.inj hview
  rw [readAt_append_left (by omega), hb] at hb'
  cases Except.ok.inj hb'
  have hdeclared := (slice_eq_ok_iff.mp hcopied).2.1
  obtain ⟨-, -, -, hcut⟩ := slice_eq_ok_iff.mp hslice
  dsimp only at hcut
  obtain ⟨-, -, -, hfront⟩ := slice_eq_ok_iff.mp hfixed
  have hports : ∃ rest, fixed = bytes16 srcPort ++ bytes16 dstPort ++ rest := ⟨_, by rw [hfront]; rfl⟩
  obtain ⟨rest, hports⟩ := hports
  refine ⟨rest ++ copied.take (((20 : ℤ) + (((b >>> 4).toNat : ℤ) - 5) * 4 - 0).toNat - fixed.length), ?_⟩
  rw [hcut, Int.toNat_zero, List.drop_zero, List.take_append, List.take_of_length_le (by omega),
    ← List.append_assoc, ← hports]

/-- Making the checksums of a packet with a plain IP header keeps the addresses and what comes
before the transport checksum. -/
theorem FullPacketObject.recalculateChecksums_frame {packet packet' : FullPacketObject}
    {mid addrs ports rest : List UByte} (hmid : mid.length = 11) (haddrs : addrs.length = 8)
    (hports : ports.length ≤ 6)
    (hpacket : packet = .tcp ([0x45] ++ mid ++ addrs ++ (ports ++ rest)) ∨
      packet = .udp ([0x45] ++ mid ++ addrs ++ (ports ++ rest)))
    (h : packet.recalculateChecksums = .ok packet') :
    ∃ mid' rest', mid'.length = 11 ∧ packet'.bytes = [0x45] ++ mid' ++ addrs ++ (ports ++ rest') := by
  have hview : Ipv4PacketView.parsePacket ([0x45] ++ mid ++ addrs ++ (ports ++ rest)) =
      .ok ⟨[0x45] ++ mid ++ addrs ++ (ports ++ rest), 0⟩ := rfl
  -- after the IP checksum the transport header is still behind the same twenty bytes
  have hip (ip : Ipv4PacketView) (hrecalc : Ipv4PacketView.recalculateIpChecksum
      ⟨[0x45] ++ mid ++ addrs ++ (ports ++ rest), 0⟩ = .ok ip) :
      ∃ mid', mid'.length = 11 ∧ ip.header.take ip.getSize.toNat = [0x45] ++ mid' ++ addrs ∧
        ip.header.drop ip.getSize.toNat = ports ++ rest := by
    obtain ⟨hadd, mid', hmid', hheader⟩ := Ipv4PacketView.recalculateIpChecksum_frame
      [0x45] mid (addrs ++ (ports ++ rest)) (by simp only [List.append_assoc]) (by decide) (by simp [hmid]) hrecalc
    have hsize : ip.getSize.toNat = 20 := by
      rw [Ipv4PacketView.getSize, hadd]
      rfl
    have hlen : ([0x45] ++ mid' ++ addrs).length = 20 := by simp [hmid', hmid, haddrs]
    refine ⟨mid', hmid'.trans hmid, ?_⟩
    rw [hsize, hheader, ← List.append_assoc ([0x45] ++ mid'), List.take_left' hlen,
      List.drop_left' hlen]
    exact ⟨rfl, rfl⟩
  rcases hpacket with rfl | rfl
  · obtain ⟨ip, hparse, h⟩ := bind_eq_ok_iff.mp h
    obtain ⟨ip', hrecalc, h⟩ := bind_eq_ok_iff.mp h
    obtain ⟨transport, htransport, h⟩ := bind_eq_ok_iff.mp h
    obtain ⟨payload, -, h⟩ := bind_eq_ok_iff.mp h
    obtain ⟨pseudo, -, h⟩ := bind_eq_ok_iff.mp h
    obtain ⟨transport', hstore, h⟩ := bind_eq_ok_iff.mp h
    cases Except.ok.inj h
    cases Except.ok.inj (hview.symm.trans hparse)
    obtain ⟨mid', hmid', htake, hdrop⟩ := hip ip' hrecalc
    obtain ⟨b, -, hb⟩ := bind_eq_ok_iff.mp htransport
    cases Except.ok.inj hb
    obtain ⟨rest', hrest'⟩ := TcpPacketView.recalculateTransportChecksum_frame hdrop (by omega) hstore
    exact ⟨mid', rest', hmid', by rw [bytes, htake, hrest']⟩
  · obtain ⟨ip, hparse, h⟩ := bind_eq_ok_iff.mp h
    obtain ⟨ip', hrecalc, h⟩ := bind_eq_ok_iff.mp h
    obtain ⟨payload, -, h⟩ := bind_eq_ok_iff.mp h
    obtain ⟨pseudo, -, h⟩ := bind_eq_ok_iff.mp h
    obtain ⟨transport', hstore, h⟩ := bind_eq_ok_iff.mp h
    cases Except.ok.inj h
    cases Except.ok.inj (hview.symm.trans hparse)
    obtain ⟨mid', hmid', htake, hdrop⟩ := hip ip' hrecalc
    obtain ⟨rest', hrest'⟩ := UdpPacketView.recalculateTransportChecksum_frame hdrop hports hstore
    exact ⟨mid', rest', hmid', by rw [bytes, htake, hrest']⟩

end QVPN
