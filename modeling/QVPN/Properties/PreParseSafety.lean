import QVPN.Properties.TcpReinjection

/-!
# Parsing arbitrary packets

The pre-parser and the getters that the drivers use on its result, over bytes of any length and
content. Nothing compares the bytes with their number, so every read that the two length nibbles
lead to is made. The reads are inside the buffer exactly when the headers that the nibbles
describe are, with the IPv4 header counted the way its view counts it.
-/

namespace QVPN

open BigEndian Memory

/-- What the drivers read of a parsed packet: source address, ports, proto data and payload. -/
def FullPacketView.inspect (mem : List UByte) (packet : FullPacketView) : Except Fault Unit := do
  let _ ← packet.getSrcAddr
  let _ ← packet.getSrcPort
  let _ ← packet.getDstPort
  let _ ← packet.collectProtoData
  let _ ← packet.getPayload mem
  return ()

/-- Parse bytes and inspect the packet that they are taken for. -/
def parseAndInspect (bytes : List UByte) : Except Fault Unit := do
  let packet ← FullPacketView.preParse bytes bytes.length
  packet.inspect bytes

/-- Where a view of the IPv4 header takes the transport header to begin. -/
def viewedTransportAt (bytes : List UByte) : ℕ := 15 + declaredWords bytes

/-- The headers that the bytes describe lie inside them, as far as they are read. -/
structure HeadersInside (bytes : List UByte) : Prop where
  nonempty : 1 ≤ bytes.length
  network : bytes.getD 0 0 >>> 4 = NetProtocol.IPv4.val → 10 ≤ bytes.length
  tcp : bytes.getD 0 0 >>> 4 = NetProtocol.IPv4.val → bytes.getD 9 0 = TransportProtocol.TCP.val →
    5 ≤ declaredOffset (bytes.drop (viewedTransportAt bytes)) ∧
      viewedTransportAt bytes + 4 * declaredOffset (bytes.drop (viewedTransportAt bytes)) ≤
        bytes.length
  udp : bytes.getD 0 0 >>> 4 = NetProtocol.IPv4.val → bytes.getD 9 0 = TransportProtocol.UDP.val →
    viewedTransportAt bytes + 8 ≤ bytes.length

/-- An IPv4 view of some bytes, and where it ends. -/
theorem Ipv4PacketView.parsePacket_of_nonempty {bytes : List UByte} (h : 1 ≤ bytes.length) :
    parsePacket bytes = .ok ⟨bytes, (declaredWords bytes : ℤ) - 5⟩ ∧
      (getSize ⟨bytes, (declaredWords bytes : ℤ) - 5⟩).toNat = viewedTransportAt bytes := by
  have hsmall : declaredWords bytes ≤ 15 := by
    rw [declaredWords]
    generalize bytes.getD 0 0 = b
    revert b
    exact forall_byte (by decide +kernel)
  refine ⟨?_, ?_⟩
  · rw [parsePacket, readAt_getD h 0]
    rfl
  · rw [getSize, toNat_ofInt, viewedTransportAt]
    dsimp only
    omega

namespace FullPacketView

/-- The reads of a UDP packet end with its header. -/
theorem inspect_udp {bytes : List UByte} (h : 1 ≤ bytes.length) :
    Legal (ipv4Udp bytes bytes.length >>= inspect bytes) ↔
      viewedTransportAt bytes + 8 ≤ bytes.length := by
  obtain ⟨hview, hsize⟩ := Ipv4PacketView.parsePacket_of_nonempty h
  have height : (UdpPacketView.getSize ⟨bytes.drop (viewedTransportAt bytes)⟩).toNat = 8 := rfl
  rw [ipv4Udp, hview, ok_bind, hsize]
  dsimp only
  rw [height, pure_bind]
  simp only [inspect, getSrcAddr, Ipv4PacketView.getSrcAddr, getSrcPort, UdpPacketView.getUdpSrcPort,
    getDstPort, UdpPacketView.getUdpDstPort, collectProtoData, QTunnelUDPViewScheme.generateObjectBytes,
    UdpPacketView.getUdpLength, getPayload, bind_assoc, pure_bind, legal_slice_bind,
    legal_read16_bind, List.length_drop]
  simp only [pure, Except.pure, legal_ok, and_true]
  rw [viewedTransportAt]
  constructor
  · intro hreads
    omega
  · intro hfits
    omega

/-- The reads of a TCP packet end with its options. -/
theorem inspect_tcp {bytes : List UByte} (h : 1 ≤ bytes.length) :
    Legal (ipv4Tcp bytes bytes.length >>= inspect bytes) ↔
      5 ≤ declaredOffset (bytes.drop (viewedTransportAt bytes)) ∧
        viewedTransportAt bytes + 4 * declaredOffset (bytes.drop (viewedTransportAt bytes)) ≤
          bytes.length := by
  obtain ⟨hview, hsize⟩ := Ipv4PacketView.parsePacket_of_nonempty h
  have hoffset : declaredOffset (bytes.drop (viewedTransportAt bytes)) ≤ 15 := highNibble_le _
  rw [ipv4Tcp, hview, ok_bind, hsize]
  simp only [TcpPacketView.parsePacket, TcpPacketView.toView, TcpPacketView.getSize, inspect, getSrcAddr,
    Ipv4PacketView.getSrcAddr, getSrcPort, TcpPacketView.getTcpSrcPort, getDstPort,
    TcpPacketView.getTcpDstPort, collectProtoData, QTunnelTCPViewScheme.generateObjectBytes,
    TcpPacketView.getTcpSeqNumber, TcpPacketView.getTcpAckNumber, TcpPacketView.getTcpFlags,
    TcpPacketView.getTcpHeaderLength, TcpPacketView.getTcpWindowSize,
    TcpPacketView.getTcpUrgentPointer, TcpPacketView.getTcpOptions, getPayload, bind_assoc, pure_bind,
    legal_slice_bind, legal_readAt_bind (0 : UByte), legal_read16_bind, legal_read32_bind]
  simp only [pure, Except.pure, legal_ok, and_true, toNat_ofInt, List.length_drop]
  rw [declaredOffset, viewedTransportAt] at *
  constructor
  · intro hreads
    omega
  · intro hfits
    omega

end FullPacketView

/-- A dummy packet is inspected without a read. -/
theorem FullPacketView.inspect_dummy (bytes : List UByte) :
    Legal ((pure dummy : Except Fault FullPacketView) >>= inspect bytes) := ⟨(), rfl⟩

/-- An IPv4 packet is parsed by its protocol, which is read first. -/
theorem parseAndInspect_ipv4 {bytes : List UByte} (hempty : 1 ≤ bytes.length)
    (hversion : bytes.getD 0 0 >>> 4 = NetProtocol.IPv4.val) :
    Legal (parseAndInspect bytes) ↔ 10 ≤ bytes.length ∧
      (bytes.getD 9 0 = TransportProtocol.TCP.val →
        5 ≤ declaredOffset (bytes.drop (viewedTransportAt bytes)) ∧
          viewedTransportAt bytes + 4 * declaredOffset (bytes.drop (viewedTransportAt bytes)) ≤
            bytes.length) ∧
      (bytes.getD 9 0 = TransportProtocol.UDP.val →
        viewedTransportAt bytes + 8 ≤ bytes.length) := by
  obtain ⟨hview, -⟩ := Ipv4PacketView.parsePacket_of_nonempty hempty
  have hproto (p : TransportProtocol) : (⟨bytes.getD 9 0⟩ : TransportProtocol) = p ↔
      bytes.getD 9 0 = p.val := by
    cases p
    simp
  rw [parseAndInspect, FullPacketView.preParse, readAt_getD hempty 0, ok_bind, highNibble_and,
    if_pos hversion, hview, ok_bind, Ipv4PacketView.getIpProtocol]
  simp only [bind_assoc, pure_bind, legal_readAt_bind (0 : UByte), hproto]
  apply and_congr Iff.rfl
  by_cases htcp : bytes.getD 9 0 = TransportProtocol.TCP.val
  · have hudp : ¬ bytes.getD 9 0 = TransportProtocol.UDP.val := by
      rw [htcp]
      decide
    rw [if_pos htcp, FullPacketView.inspect_tcp hempty]
    constructor
    · intro h
      exact ⟨fun _ => h, fun h' => absurd h' hudp⟩
    · intro h
      exact h.1 htcp
  · rw [if_neg htcp]
    by_cases hudp : bytes.getD 9 0 = TransportProtocol.UDP.val
    · rw [if_pos hudp, FullPacketView.inspect_udp hempty]
      constructor
      · intro h
        exact ⟨fun h' => absurd h' htcp, fun _ => h⟩
      · intro h
        exact h.2 hudp
    · rw [if_neg hudp]
      exact iff_of_true (FullPacketView.inspect_dummy bytes)
        ⟨fun h => absurd h htcp, fun h => absurd h hudp⟩

/-- Every read that parsing and inspecting makes is inside the buffer, and the payload does not
end before it begins, exactly when the headers that the bytes describe lie inside them. -/
theorem parseAndInspect_legal_iff (bytes : List UByte) :
    Legal (parseAndInspect bytes) ↔ HeadersInside bytes := by
  by_cases hempty : 1 ≤ bytes.length
  · by_cases hversion : bytes.getD 0 0 >>> 4 = NetProtocol.IPv4.val
    · rw [parseAndInspect_ipv4 hempty hversion]
      constructor
      · rintro ⟨hnetwork, htcp, hudp⟩
        exact ⟨hempty, fun _ => hnetwork, fun _ => htcp, fun _ => hudp⟩
      · intro h
        exact ⟨h.network hversion, h.tcp hversion, h.udp hversion⟩
    · have hdummy : Legal (parseAndInspect bytes) := by
        rw [parseAndInspect, FullPacketView.preParse, readAt_getD hempty 0, ok_bind, highNibble_and,
          if_neg hversion]
        exact FullPacketView.inspect_dummy bytes
      exact iff_of_true hdummy ⟨hempty, fun h => absurd h hversion, fun h => absurd h hversion,
        fun h => absurd h hversion⟩
  · have hnil : bytes = [] := List.length_eq_zero_iff.mp (by omega)
    rw [hnil]
    exact iff_of_false (not_legal_error .outOfBounds) fun h => absurd h.nonempty (by decide)

/-- No byte at all, twenty bytes that announce TCP, and a data offset of four: each is read outside
the buffer, or gives a range that ends before it begins. -/
theorem shortPackets_outOfBounds :
    parseAndInspect [] = .error .outOfBounds ∧
    parseAndInspect (datagramHeader.set 9 6) = .error .outOfBounds ∧
    parseAndInspect (datagramHeader.set 9 6 ++ List.replicate 12 0 ++ 0x40 :: List.replicate 7 0) =
      .error .invalidRange ∧
    ¬ ∀ bytes, Legal (parseAndInspect bytes) := by
  refine ⟨by decide, by decide, by decide, ?_⟩
  intro h
  exact not_legal_error .outOfBounds (h [])

end QVPN
