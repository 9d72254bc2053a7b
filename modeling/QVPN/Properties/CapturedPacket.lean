import QVPN.Driver.Client
import QVPN.Properties.InjectedProtocol

/-!
# What the client reads of a captured packet

A packet lies at the start of the capture buffer, and behind it lies what was captured before. The
capture loop reads the addresses and the ports, turns the transport header into scheme bytes, takes
the payload, and prints the packet. Whatever lies behind the packet makes no difference, except that
the print may walk into it when the last option is cut off.
-/

namespace QVPN

open BigEndian Memory

/-- An IPv4 packet that carries TCP or UDP, cut where its headers end. -/
structure Datagram where
  proto : TransportProtocol
  net : List UByte
  transport : List UByte
  payload : List UByte
  deriving DecidableEq, Repr

namespace Datagram

def bytes (d : Datagram) : List UByte := d.net ++ d.transport ++ d.payload

/-- The scheme of the transport header. -/
def protoBytes (d : Datagram) : List UByte :=
  if d.proto = .TCP then schemeOf (d.transport.take 20) (d.transport.drop 20)
  else bytes16 2 ++ bytes16 (join (d.transport.getD 4 0) (d.transport.getD 5 0))

/-- The packet as it is sent through the tunnel. -/
def tunnelled (d : Datagram) : QTunnelData where
  netProtocol := .IPv4
  transportProtocol := d.proto
  sourceAddr := ⟨(d.net.drop 12).take 4⟩
  sourcePort := join (d.transport.getD 0 0) (d.transport.getD 1 0)
  dstAddr := ⟨(d.net.drop 16).take 4⟩
  dstPort := join (d.transport.getD 2 0) (d.transport.getD 3 0)
  protoData := ⟨d.protoBytes⟩
  data := d.payload

/-- A TCP packet with FIN or RST. -/
def resets (d : Datagram) : Bool :=
  d.proto = .TCP && (d.transport.getD 13 0 &&& 0x5) != 0

/-- A complete packet without IP options. -/
structure WellFormed (d : Datagram) : Prop where
  packet : IsIpv4Packet d.proto d.net d.transport d.payload
  plain : declaredWords d.net = 5

/-- No option that the print visits has the length zero; it reads on behind the packet. -/
def OptionsAdvance (d : Datagram) (behind : List UByte) : Prop :=
  d.proto = .TCP → TcpOptionsView.OptionsAdvance ((d.transport ++ (d.payload ++ behind)).drop 20)
    (d.transport.length - 20) 0

end Datagram

/-- The views of a TCP packet in front of anything. -/
def Datagram.tcpView (d : Datagram) (behind : List UByte) : FullPacketView :=
  .tcp ⟨d.bytes ++ behind, 0⟩
    ⟨d.transport ++ (d.payload ++ behind), (d.transport.length : ℤ) - 20⟩
    (20 + d.transport.length, d.bytes.length)

/-- What the views of a packet show. -/
structure Datagram.SeenAs (d : Datagram) (mem : List UByte) (view : FullPacketView) : Prop where
  parse : FullPacketView.preParse mem d.bytes.length = .ok view
  version : view.getProtocolVersion = .ok .IPv4
  transport : view.getTransportProtocol = .ok d.proto
  source : view.getSrcAddr = .ok d.tunnelled.sourceAddr
  sourcePort : view.getSrcPort = .ok d.tunnelled.sourcePort
  destination : view.getDstAddr = .ok d.tunnelled.dstAddr
  destinationPort : view.getDstPort = .ok d.tunnelled.dstPort
  collect : view.collectProtoData = .ok d.tunnelled.protoData
  payload : view.getPayload mem = .ok d.payload
  reset : view.isResetConnectionPacket = .ok d.resets

/-- The capture buffer holds a packet, and is longer. -/
structure Captured.Holds (c : Captured) (d : Datagram) (behind : List UByte) : Prop where
  mem_eq : c.mem = d.bytes ++ behind
  size_eq : c.size = d.bytes.length
  behind_ne : behind ≠ []

namespace Datagram.WellFormed

variable {d : Datagram} (h : d.WellFormed)
include h

theorem net_length : d.net.length = 20 := by
  rw [h.packet.layout.length_eq, h.plain]

theorem dstAddr_length : d.tunnelled.dstAddr.ip.length = 4 := by
  have hlength := h.net_length
  change ((d.net.drop 16).take 4).length = 4
  rw [List.length_take, List.length_drop]
  omega

theorem transport_length : d.transport.length ≤ 60 := by
  obtain ⟨-, htcp⟩ | ⟨-, hudp, -⟩ := h.packet.transport_header
  · have hle : declaredOffset d.transport ≤ 15 := highNibble_le _
    rw [htcp.length_eq]
    omega
  · omega

/-- Reads of the IP header in front of anything. -/
theorem net_reads (rest : List UByte) :
    Ipv4PacketView.getIpVersion ⟨d.net ++ rest, 0⟩ = .ok .IPv4 ∧
      Ipv4PacketView.getIpProtocol ⟨d.net ++ rest, 0⟩ = .ok d.proto ∧
      Ipv4PacketView.getSrcAddr ⟨d.net ++ rest, 0⟩ = .ok ⟨(d.net.drop 12).take 4⟩ ∧
      Ipv4PacketView.getDstAddr ⟨d.net ++ rest, 0⟩ = .ok ⟨(d.net.drop 16).take 4⟩ := by
  have hlength := h.net_length
  have hslice (b e : ℕ) (hb : b ≤ e) (he : e ≤ 20) :
      slice (d.net ++ rest) b e = .ok ((d.net.drop b).take (e - b)) := by
    apply slice_of_prefix
    rw [slice_eq_ok_iff]
    refine ⟨by omega, by omega, by omega, ?_⟩
    congr 1
    omega
  refine ⟨?_, ?_, ?_, ?_⟩
  · rw [Ipv4PacketView.getIpVersion]
    dsimp only
    rw [readAt_append_getD (by omega) 0, ok_bind, h.packet.version]
    rfl
  · rw [Ipv4PacketView.getIpProtocol]
    dsimp only
    rw [readAt_append_getD (by omega) 0, ok_bind, h.packet.protocol]
    rfl
  · have hsrc : slice (d.net ++ rest) 12 16 = .ok ((d.net.drop 12).take 4) :=
      hslice 12 16 (by decide) (by decide)
    rw [Ipv4PacketView.getSrcAddr]
    dsimp only
    rw [hsrc]
    rfl
  · have hdst : slice (d.net ++ rest) 16 20 = .ok ((d.net.drop 16).take 4) :=
      hslice 16 20 (by decide) (by decide)
    rw [Ipv4PacketView.getDstAddr]
    dsimp only
    rw [hdst]
    rfl

/-- The ports are the first words of either transport header. -/
theorem ports (rest : List UByte) :
    read16 (d.transport ++ rest) 0 = .ok d.tunnelled.sourcePort ∧
      read16 (d.transport ++ rest) 2 = .ok d.tunnelled.dstPort := by
  have hlength : 8 ≤ d.transport.length := by
    obtain ⟨-, htcp⟩ | ⟨-, hudp, -⟩ := h.packet.transport_header
    · have hge := htcp.offset_ge
      have heq := htcp.length_eq
      omega
    · omega
  exact ⟨ read16_of_prefix (read16_getD (by omega)) rest,
    read16_of_prefix (read16_getD (by omega)) rest⟩

/-- The payload lies behind both headers. -/
theorem getPayload (behind : List UByte) :
    slice (d.bytes ++ behind) ((20 + d.transport.length : ℕ) : ℤ) d.bytes.length =
      .ok d.payload := by
  have hlength := h.net_length
  rw [Datagram.bytes]
  apply slice_append
  · rw [List.length_append, hlength]
  · rw [List.length_append, List.length_append, hlength]
    rfl

end Datagram.WellFormed

/-- FIN and RST are bits of the flag byte; NS does not get in their way. -/
theorem resetFlags (b f : UByte) :
    (TcpFlagsObject.getFin ⟨(b &&& 0x1).toUInt16 <<< 1 ||| f.toUInt16⟩ == 1 ||
      TcpFlagsObject.getRst ⟨(b &&& 0x1).toUInt16 <<< 1 ||| f.toUInt16⟩ == 1) =
        ((f &&& 0x5) != 0) := by
  have hns : b &&& 0x1 = 0 ∨ b &&& 0x1 = 1 := by
    revert b
    exact forall_byte (by decide +kernel)
  rcases hns with hns | hns
  · rw [hns]
    revert f
    exact forall_byte (by decide +kernel)
  · rw [hns]
    revert f
    exact forall_byte (by decide +kernel)

/-- Whether a TCP header in front of anything ends its connection. -/
theorem IsTcpLayout.isResetConnectionPacket {header : List UByte} (h : IsTcpLayout header)
    (rest : List UByte) (size : ℤ) :
    TcpPacketView.isResetConnectionPacket ⟨header ++ rest, size⟩ =
      .ok ((header.getD 13 0 &&& 0x5) != 0) := by
  have hge := h.offset_ge
  have hlength := h.length_eq
  rw [TcpPacketView.isResetConnectionPacket, TcpPacketView.getTcpFlags]
  dsimp only
  rw [readAt_append_getD (by omega) 0, ok_bind, readAt_append_getD (by omega) 0]
  exact congrArg Except.ok (resetFlags _ _)

/-- A view of a TCP header in front of anything makes its scheme. -/
theorem IsTcpLayout.generateObjectBytes {header : List UByte} (h : IsTcpLayout header)
    (rest : List UByte) :
    QTunnelTCPViewScheme.generateObjectBytes ⟨header ++ rest, header.length - 20⟩ =
      .ok (schemeOf (header.take 20) (header.drop 20)) := by
  have hge := h.offset_ge
  have hlength := h.length_eq
  have hfixed : (header.take 20).length = 20 := List.length_take_of_le (by omega)
  have hsplit : header ++ rest = header.take 20 ++ (header.drop 20 ++ rest) := by
    rw [← List.append_assoc, List.take_append_drop]
  have hoptions : slice (header.drop 20 ++ rest) 0 ((header.length : ℤ) - 20) =
      .ok (header.drop 20) := slice_prefix _ _ _ (by rw [List.length_drop]; omega)
  rw [hsplit, generateObjectBytes_fixed hfixed, hoptions]
  rfl

/-- The proto data that is collected of a TCP header. -/
theorem IsTcpLayout.collectProtoData {header : List UByte} (h : IsTcpLayout header)
    (rest : List UByte) (ip : Ipv4PacketView) (range : ℤ × ℤ) :
    (FullPacketView.tcp ip ⟨header ++ rest, header.length - 20⟩ range).collectProtoData =
      .ok ⟨schemeOf (header.take 20) (header.drop 20)⟩ := by
  rw [FullPacketView.collectProtoData, TcpPacketView.toView_of_parsed (h.parsePacket_view rest),
    ok_bind, h.generateObjectBytes]
  rfl

namespace Datagram.WellFormed

variable {d : Datagram} (h : d.WellFormed)
include h

/-- A packet that carries TCP has a TCP header. -/
theorem layout (htcp : d.proto = .TCP) : IsTcpLayout d.transport := by
  obtain ⟨-, hlayout⟩ | ⟨hudp, -⟩ := h.packet.transport_header
  · exact hlayout
  · rw [htcp] at hudp
    exact absurd hudp (by decide)

/-- A packet that carries UDP has a UDP header, whose length field is right. -/
theorem datagramLength (hudp : d.proto = .UDP) : d.transport.length = 8 ∧
    (join (d.transport.getD 4 0) (d.transport.getD 5 0)).toNat = 8 + d.payload.length := by
  obtain ⟨htcp, -⟩ | ⟨-, hlength⟩ := h.packet.transport_header
  · rw [hudp] at htcp
    exact absurd htcp (by decide)
  · exact hlength

/-- The views of a TCP packet, and when it can be printed. -/
theorem seenAs_tcp (htcp : d.proto = .TCP) {behind : List UByte} (hbehind : behind ≠ []) :
    d.SeenAs (d.bytes ++ behind) (d.tcpView behind) ∧
      ((∃ u, (d.tcpView behind).toPacketFriendlyView = .ok u) ↔ d.OptionsAdvance behind) := by
  have hlayout := h.layout htcp
  have hge := hlayout.offset_ge
  have hlength := hlayout.length_eq
  have hpos := List.length_pos_iff.mpr hbehind
  have hnet := h.net_length
  have hparts : d.bytes ++ behind = d.net ++ d.transport ++ (d.payload ++ behind) := by
    rw [Datagram.bytes, List.append_assoc]
  have hmem : d.bytes ++ behind = d.net ++ (d.transport ++ (d.payload ++ behind)) := by
    rw [hparts, List.append_assoc]
  obtain ⟨hversion, hproto, hsrc, hdst⟩ := h.net_reads (d.transport ++ (d.payload ++ behind))
  obtain ⟨hsrcPort, hdstPort⟩ := h.ports (d.payload ++ behind)
  rw [← hmem] at hversion hproto hsrc hdst
  have hin : TcpPacketView.InMemory
      ⟨d.transport ++ (d.payload ++ behind), (d.transport.length : ℤ) - 20⟩ := by
    refine ⟨?_, ?_⟩
    · dsimp only
      omega
    · dsimp only
      rw [List.length_append]
      omega
  refine ⟨?_, ?_⟩
  · refine ⟨?_, hversion, hproto, hsrc, hsrcPort, hdst, hdstPort, ?_, h.getPayload behind, ?_⟩
    · rw [hmem, FullPacketView.preParse_plain h.packet.layout h.plain h.packet.version
        h.packet.protocol (Or.inl htcp), if_pos htcp, ← hmem, hparts,
        FullPacketView.ipv4Tcp_plain h.packet.layout h.plain hlayout, ← hparts]
      rfl
    · rw [Datagram.tcpView, hlayout.collectProtoData, Datagram.tunnelled, Datagram.protoBytes,
        if_pos htcp]
    · rw [Datagram.tcpView, FullPacketView.isResetConnectionPacket,
        hlayout.isResetConnectionPacket, Datagram.resets, htcp]
      rfl
  · have hwalk := hin.toTcpFriendlyView_ok_iff
      (by dsimp only; rw [List.length_append, List.length_append]; omega)
      (by have := h.transport_length; dsimp only; omega)
    have hcount : ((d.transport.length : ℤ) - 20).toNat = d.transport.length - 20 := by omega
    dsimp only at hwalk
    rw [hcount] at hwalk
    have hfixed : 20 ≤ (d.bytes ++ behind).length := by
      rw [hmem, List.length_append]
      omega
    rw [Datagram.tcpView, FullPacketView.toPacketFriendlyView,
      Ipv4PacketView.ipToFriendlyView_of_le hfixed, ok_bind]
    constructor
    · intro hprint _
      obtain ⟨u, hu⟩ := hprint
      obtain ⟨options, hoptions, -⟩ := bind_eq_ok_iff.mp hu
      exact hwalk.mp ⟨options, hoptions⟩
    · intro hadvance
      obtain ⟨options, hoptions⟩ := hwalk.mpr (hadvance htcp)
      exact ⟨(), by rw [hoptions]; rfl⟩

/-- The views of a UDP packet, which can be printed. -/
theorem seenAs_udp (hudp : d.proto = .UDP) (behind : List UByte) :
    ∃ view, d.SeenAs (d.bytes ++ behind) view ∧ view.toPacketFriendlyView = .ok () := by
  have htransport := (h.datagramLength hudp).1
  have hnet := h.net_length
  have hmem : d.bytes ++ behind = d.net ++ (d.transport ++ (d.payload ++ behind)) := by
    simp only [Datagram.bytes, List.append_assoc]
  obtain ⟨hversion, hproto, hsrc, hdst⟩ := h.net_reads (d.transport ++ (d.payload ++ behind))
  obtain ⟨hsrcPort, hdstPort⟩ := h.ports (d.payload ++ behind)
  rw [← hmem] at hversion hproto hsrc hdst
  have hnot : d.proto ≠ .TCP := by
    rw [hudp]
    decide
  refine ⟨.udp ⟨d.bytes ++ behind, 0⟩ ⟨d.transport ++ (d.payload ++ behind)⟩
    (28, d.bytes.length), ?_, ?_⟩
  · refine ⟨?_, hversion, hproto, hsrc, hsrcPort, hdst, hdstPort, ?_, ?_, ?_⟩
    · rw [hmem, FullPacketView.preParse_plain h.packet.layout h.plain h.packet.version
        h.packet.protocol (Or.inr hudp), if_neg hnot,
        FullPacketView.ipv4Udp_plain h.packet.layout h.plain]
    · have hread : read16 (d.transport ++ (d.payload ++ behind)) 4 =
          .ok (join (d.transport.getD 4 0) (d.transport.getD 5 0)) :=
        read16_of_prefix (read16_getD (by omega)) _
      rw [FullPacketView.collectProtoData, QTunnelUDPViewScheme.generateObjectBytes,
        UdpPacketView.getUdpLength]
      dsimp only
      rw [hread, Datagram.tunnelled, Datagram.protoBytes, if_neg hnot]
      rfl
    · have hpayload := h.getPayload behind
      rw [htransport] at hpayload
      exact hpayload
    · rw [FullPacketView.isResetConnectionPacket, Datagram.resets, hudp]
      rfl
  · rw [hmem]
    exact FullPacketView.toPacketFriendlyView_udp
      (by rw [List.length_append]; omega) htransport _ _

/-- The views of a packet, and when it can be printed. -/
theorem seenAs {behind : List UByte} (hbehind : behind ≠ []) :
    ∃ view, d.SeenAs (d.bytes ++ behind) view ∧
      ((∃ u, view.toPacketFriendlyView = .ok u) ↔ d.OptionsAdvance behind) := by
  obtain ⟨htcp, -⟩ | ⟨hudp, -⟩ := h.packet.transport_header
  · exact ⟨_, h.seenAs_tcp htcp hbehind⟩
  · obtain ⟨view, hview, hprint⟩ := h.seenAs_udp hudp behind
    refine ⟨view, hview, iff_of_true ⟨(), hprint⟩ ?_⟩
    intro htcp
    rw [hudp] at htcp
    exact absurd htcp (by decide)

/-- What the loop reads of a packet, once it is printed. -/
theorem readPacket_eq {c : Captured} {behind : List UByte} (hc : c.Holds d behind)
    (hadvance : d.OptionsAdvance behind) :
    c.readPacket = .ok (d.tunnelled.toQTunnelProxy, d.tunnelled.data) := by
  obtain ⟨view, hview, hprint⟩ := h.seenAs hc.behind_ne
  obtain ⟨⟨⟩, hprinted⟩ := hprint.mpr hadvance
  rw [Captured.readPacket, hc.mem_eq, hc.size_eq, hview.parse, ok_bind, hview.version, ok_bind,
    hview.transport, ok_bind, hview.source, ok_bind, hview.sourcePort, ok_bind, hview.destination,
    ok_bind, hview.destinationPort, ok_bind, hview.collect, ok_bind, hview.payload, ok_bind,
    hprinted]
  rfl

/-- A packet whose payload the split does not lose can be sent through the tunnel. -/
theorem sendable (hsize : Lossless d.payload) : d.tunnelled.Sendable := by
  obtain ⟨view, hview, -⟩ := h.seenAs (List.cons_ne_nil 0 [])
  have hlength := h.net_length
  refine ⟨Or.inl ⟨rfl, ?_, h.dstAddr_length⟩, ⟨_, _, view, hview.parse, hview.collect⟩, hsize⟩
  change ((d.net.drop 12).take 4).length = 4
  rw [List.length_take, List.length_drop]
  omega

end Datagram.WellFormed

end QVPN
