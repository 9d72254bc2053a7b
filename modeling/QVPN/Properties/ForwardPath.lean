import QVPN.Properties.CapturedPacket
import QVPN.Properties.ClientRuns
import QVPN.Properties.NatRoundTrip
import QVPN.Properties.ProcessSocket
import QVPN.Properties.SenderPacket

/-!
# From the capture to the raw socket

A packet goes into the tunnel as scheme bytes and payload, and a new packet is made of them on the
other side. The destination, the ports, the fields and options of a TCP header and the payload are
the ones that were captured. The source is the server's address, the IP header is a new one, and of
a TCP header the reserved bits are lost and NS becomes SYN. The new TCP packet is complete and its
checksums verify; of a UDP packet the total length is wrong.
-/

namespace QVPN

open BigEndian Checksum Memory QVPNLayersSettings

namespace Datagram

/-- The transport header that leaves the server. -/
def forwardedTransport (d : Datagram) (check : UShort) : List UByte :=
  if d.proto = .TCP then
    d.transport.take 12 ++ [d.transport.getD 12 0 &&& 0xF0,
      tunnelledFlags (d.transport.getD 12 0) (d.transport.getD 13 0)] ++
      (d.transport.drop 14).take 2 ++ bytes16 check ++ d.transport.drop 18
  else d.transport.take 6 ++ bytes16 check

/-- The total length that is announced; the length of a UDP packet is taken for words. -/
def forwardedTotal (d : Datagram) : UShort :=
  UInt16.ofNat (20 + (if d.proto = .TCP then d.transport.length else 4 * (8 + d.payload.length)) +
    d.payload.length)

end Datagram

/-- What leaves the server for a captured packet. -/
structure Forwards (d : Datagram) (bytes src : List UByte) : Prop where
  parts : ∃ net check, bytes = net ++ d.forwardedTransport check ++ d.payload ∧ net.length = 20 ∧
    net.getD 0 0 = 0x45 ∧ net.getD 9 0 = d.proto.val ∧
    join (net.getD 2 0) (net.getD 3 0) = d.forwardedTotal ∧ (net.drop 12).take 4 = src ∧
    (net.drop 16).take 4 = (d.net.drop 16).take 4 ∧ onesSum net 0 = 65535 ∧
    onesSum (TransportIpv4PseudoHeader.data ⟨src⟩ d.tunnelled.dstAddr d.proto
      (d.forwardedTotal - 20) ++ d.forwardedTransport check ++ d.payload) 0 = 65535

/-- The upper half of a byte, put back in its place. -/
theorem highNibble_back (b : UByte) : (b >>> 4) <<< 4 ||| (0 &&& 0x1) = b &&& 0xF0 := by
  revert b
  exact forall_byte (by decide +kernel)

/-- The header that is made of the scheme of another header. -/
theorem tcpFields_schemeOf {fixed options : List UByte} (hfixed : fixed.length = 20)
    (hoptions : options.length = 4 * ((fixed.getD 12 0 >>> 4).toNat - 5)) {proxy : QTunnelProxy}
    (hproto : proxy.protoData = ⟨schemeOf fixed options⟩) (check : UShort) :
    proxy.tcpFields.header check = bytes16 proxy.sourcePort ++ bytes16 proxy.dstPort ++
      (fixed.drop 4).take 8 ++
      [fixed.getD 12 0 &&& 0xF0, tunnelledFlags (fixed.getD 12 0) (fixed.getD 13 0)] ++
      (fixed.drop 14).take 2 ++ bytes16 check ++ (fixed.drop 18).take 2 ++ options := by
  obtain ⟨b0, b1, b2, b3, b4, b5, b6, b7, b8, b9, b10, b11, b12, b13, b14, b15, b16, b17, b18, b19,
    rfl⟩ := exists_twentyBytes hfixed
  have hnibble : (b12 >>> 4).toNat ≤ 15 := highNibble_le b12
  change options.length = 4 * ((b12 >>> 4).toNat - 5) at hoptions
  have hlength : (schemeOf [b0, b1, b2, b3, b4, b5, b6, b7, b8, b9, b10, b11, b12, b13, b14, b15,
      b16, b17, b18, b19] options).length = 17 + options.length := by
    simp [schemeOf]
    omega
  have hbytes : proxy.protoData.tcpOptionBytes = options := by
    rw [QTunnelProtoData.tcpOptionBytes, hproto]
    dsimp only
    rw [hlength, UInt16.toNat_ofNat', Nat.mod_eq_of_lt (by omega), ← hlength, List.take_length]
    rfl
  have hoffset : proxy.protoData.tcpOffset = (b12 >>> 4).toNat := by
    rw [QTunnelProtoData.tcpOffset, hproto]
    change (b12 >>> 4 &&& 0xF).toNat = _
    rw [highNibble_and]
  have hall : options.take (4 * ((b12 >>> 4).toNat - 5)) = options :=
    List.take_of_length_le (Nat.le_of_eq hoptions)
  have hback := highNibble_back b12
  rw [TcpFields.header, QTunnelProxy.tcpFields]
  dsimp only
  rw [hbytes, hoffset, hall, hproto]
  change _ ++ bytes32 (join32 b4 b5 b6 b7) ++ bytes32 (join32 b8 b9 b10 b11) ++
    [(b12 >>> 4) <<< 4 ||| (0 &&& 0x1), tunnelledFlags b12 b13] ++ bytes16 (join b14 b15) ++ _ ++
      bytes16 (join b18 b19) ++ options = _
  rw [hback, bytes32_join32, bytes32_join32]
  simp only [bytes16, hi_join, lo_join]
  rfl

/-- Eight bytes, one by one. -/
theorem eq_of_length_eight {bytes : List UByte} (h : bytes.length = 8) :
    ∃ b0 b1 b2 b3 b4 b5 b6 b7, bytes = [b0, b1, b2, b3, b4, b5, b6, b7] := by
  obtain ⟨b0, bytes, rfl⟩ := List.exists_of_length_succ bytes h
  obtain ⟨b1, bytes, rfl⟩ := List.exists_of_length_succ bytes (Nat.succ.inj h)
  obtain ⟨b2, bytes, rfl⟩ := List.exists_of_length_succ bytes (by simpa using h)
  obtain ⟨b3, bytes, rfl⟩ := List.exists_of_length_succ bytes (by simpa using h)
  obtain ⟨b4, bytes, rfl⟩ := List.exists_of_length_succ bytes (by simpa using h)
  obtain ⟨b5, bytes, rfl⟩ := List.exists_of_length_succ bytes (by simpa using h)
  obtain ⟨b6, bytes, rfl⟩ := List.exists_of_length_succ bytes (by simpa using h)
  obtain ⟨b7, bytes, rfl⟩ := List.exists_of_length_succ bytes (by simpa using h)
  have hnil : bytes = [] := List.eq_nil_of_length_eq_zero (by simpa using h)
  exact ⟨b0, b1, b2, b3, b4, b5, b6, b7, by rw [hnil]⟩

section Headers

variable {d : Datagram} (h : d.WellFormed)
include h

/-- The TCP header that is made on the other side of the tunnel. -/
theorem tcpFields_tunnelled (htcp : d.proto = .TCP) (check : UShort) :
    d.tunnelled.tcpFields.header check = d.forwardedTransport check := by
  have hlayout := h.layout htcp
  have hge := hlayout.offset_ge
  have hlength := hlayout.length_eq
  have hfixed : (d.transport.take 20).length = 20 := List.length_take_of_le (by omega)
  have hoptions : (d.transport.drop 20).length =
      4 * (((d.transport.take 20).getD 12 0 >>> 4).toNat - 5) := by
    rw [declaredOffset] at hge hlength
    rw [List.length_drop, getD_take (by decide)]
    omega
  have hproto : d.tunnelled.protoData =
      ⟨schemeOf (d.transport.take 20) (d.transport.drop 20)⟩ := by
    rw [Datagram.tunnelled, Datagram.protoBytes, if_pos htcp]
  have hsource : d.tunnelled.sourcePort = join (d.transport.getD 0 0) (d.transport.getD 1 0) := rfl
  have hdestination : d.tunnelled.dstPort =
      join (d.transport.getD 2 0) (d.transport.getD 3 0) := rfl
  rw [tcpFields_schemeOf hfixed hoptions hproto, Datagram.forwardedTransport, if_pos htcp, hsource,
    hdestination]
  obtain ⟨b0, b1, b2, b3, b4, b5, b6, b7, b8, b9, b10, b11, b12, b13, b14, b15, b16, b17, b18, b19,
    hbytes⟩ := exists_twentyBytes hfixed
  have htransport := List.take_append_drop 20 d.transport
  rw [hbytes] at htransport ⊢
  generalize d.transport.drop 20 = options at htransport ⊢
  rw [← htransport]
  simp only [bytes16, List.cons_append, List.getD_cons_zero, List.getD_cons_succ, hi_join, lo_join]
  rfl

/-- Without reserved bits and NS, a TCP header leaves the server with another checksum only. -/
theorem forwardedTransport_of_clear (htcp : d.proto = .TCP)
    (hclear : d.transport.getD 12 0 &&& 0x0F = 0) (check : UShort) :
    d.forwardedTransport check = d.transport.take 16 ++ bytes16 check ++ d.transport.drop 18 := by
  have hge := (h.layout htcp).offset_ge
  have hlength := (h.layout htcp).length_eq
  have hfixed : (d.transport.take 20).length = 20 := List.length_take_of_le (by omega)
  have hbyte (b : UByte) (hb : b &&& 0x0F = 0) : b &&& 0xF0 = b ∧ b &&& 0x1 = 0 := by
    revert b
    exact forall_byte (by decide +kernel)
  obtain ⟨hback, hns⟩ := hbyte _ hclear
  rw [Datagram.forwardedTransport, if_pos htcp, tunnelledFlags_of_ns_clear hns, hback]
  obtain ⟨b0, b1, b2, b3, b4, b5, b6, b7, b8, b9, b10, b11, b12, b13, b14, b15, b16, b17, b18, b19,
    hbytes⟩ := exists_twentyBytes hfixed
  have htransport := List.take_append_drop 20 d.transport
  rw [hbytes] at htransport
  rw [← htransport]
  rfl

/-- The proto data of a TCP packet goes into a TCP header of the same length. -/
theorem tunnelled_fillsTcp (htcp : d.proto = .TCP) : d.tunnelled.protoData.FillsTcp ∧
    4 * d.tunnelled.protoData.tcpOffset = d.transport.length := by
  have hlayout := h.layout htcp
  have hcollect := hlayout.collectProtoData [] ⟨[], 0⟩ (0, 0)
  obtain ⟨hfills, hoffset⟩ := collectProtoData_tcp hlayout hcollect
  have hproto : d.tunnelled.protoData =
      ⟨schemeOf (d.transport.take 20) (d.transport.drop 20)⟩ := by
    rw [Datagram.tunnelled, Datagram.protoBytes, if_pos htcp]
  rw [hproto, hoffset, hlayout.length_eq]
  exact ⟨hfills, rfl⟩

/-- The UDP header that is made on the other side of the tunnel. -/
theorem udpHeader_tunnelled (hudp : d.proto = .UDP) (check : UShort) :
    UdpFields.header ⟨d.tunnelled.sourcePort, d.tunnelled.dstPort⟩
      (join (d.transport.getD 4 0) (d.transport.getD 5 0)) check = d.forwardedTransport check := by
  have hnot : d.proto ≠ .TCP := by
    rw [hudp]
    decide
  have hlength := (h.datagramLength hudp).1
  rw [Datagram.forwardedTransport, if_neg hnot, UdpFields.header, Datagram.tunnelled]
  generalize d.transport = transport at hlength ⊢
  obtain ⟨b0, b1, b2, b3, b4, b5, b6, b7, rfl⟩ := eq_of_length_eight hlength
  simp only [bytes16, List.getD_cons_zero, List.getD_cons_succ, hi_join, lo_join]
  rfl

end Headers

section Sent

variable {data : QTunnelProxy} {key : QVPNServerSocketData} {src dst : List UByte}

/-- Over TCP a packet is sent with a total length that counts all of it. -/
theorem generateSenderPacket_tcp (hnet : data.netProtocol = .IPv4)
    (hsrc : key.serverLocalAddr.toIpv4 = .ok src) (hdst : data.dstAddr.toIpv4 = .ok dst)
    (strategy : Ipv4DefaultGenStrategy) (htcp : data.transportProtocol = .TCP)
    (hproto : data.protoData.ReadsAsTcp) (payload : List UByte) :
    ∃ id strategy', ∀ total, total = UInt16.ofNat ((UInt16.ofNat
          ((data.fromServer key).tcpFields.header 0).length +
        UInt16.ofNat payload.length).toNat + 20) →
      generateSenderPacket strategy data key payload = .ok (.tcp
        ((generatedFields id data.transportProtocol true false 0).stamped total src dst ++
          (data.fromServer key).tcpFields.header (complement (segmentSum
            (TransportIpv4PseudoHeader.data ⟨src⟩ ⟨dst⟩ data.transportProtocol (total - 20))
              ((data.fromServer key).tcpFields.header 0) payload 16)) ++ payload), strategy') := by
  obtain ⟨generated, htransport, ht, hlength⟩ := generateTransportHeader_tcp key htcp hproto
  have hreads : (data.fromServer key).protoData.ReadsAsTcp := hproto
  obtain ⟨id, net, strategy', hip, hn⟩ := generateNetHeader_stamped hsrc hdst hnet strategy
    (UInt16.ofNat ((data.fromServer key).tcpFields.header 0).length + UInt16.ofNat payload.length)
  refine ⟨id, strategy', ?_⟩
  intro total htotal
  rw [← htotal] at hn
  have hs := NetAddr.toIpv4_length hsrc
  have hd := NetAddr.toIpv4_length hdst
  have hwords := generatedFields_words id data.transportProtocol true false 0
  have hpacket := ofTcp_header _ hwords total
    ((generatedFields id data.transportProtocol true false 0).checksum total src dst) hs hd
    hreads.complete payload
  have hrecalc := recalculateChecksums_tcp _ hwords total
    ((generatedFields id data.transportProtocol true false 0).checksum total src dst) hs hd
    hreads.complete 0 payload
  have hsend := generateSenderPacket_eq htransport hlength ht hip hn (Or.inl ⟨htcp, hpacket⟩)
  rw [hrecalc, ok_bind] at hsend
  exact hsend

/-- A generated IP header, a transport header that stores the checksum over the announced segment,
and the payload. -/
theorem forwards_stamped {d : Datagram} (h : d.WellFormed) (id : UShort) (hs : src.length = 4)
    {position : ℕ} (heven : position % 2 = 0)
    (hposition : position + 2 ≤ (d.forwardedTransport 0).length)
    (hsize : (d.forwardedTransport 0).length + d.payload.length ≤ 65535)
    (hfield : ∀ check, (d.forwardedTransport 0).take position ++ bytes16 check ++
      (d.forwardedTransport 0).drop (position + 2) = d.forwardedTransport check) :
    Forwards d ((generatedFields id d.proto true false 0).stamped d.forwardedTotal src
        d.tunnelled.dstAddr.ip ++ d.forwardedTransport (complement (segmentSum
          (TransportIpv4PseudoHeader.data ⟨src⟩ d.tunnelled.dstAddr d.proto (d.forwardedTotal - 20))
            (d.forwardedTransport 0) d.payload position)) ++ d.payload) src := by
  have hd := h.dstAddr_length
  have hpseudo : (TransportIpv4PseudoHeader.data ⟨src⟩ d.tunnelled.dstAddr d.proto
      (d.forwardedTotal - 20)).length = 12 := pseudoHeader_length hs hd _ _
  have hstored := (checksumStored hpseudo heven hposition hsize).verifies
  rw [hfield] at hstored
  refine ⟨_, _, rfl, Ipv4Fields.header_length _ _ _ hs hd, rfl, rfl, join_hi_lo _, ?_, ?_,
    Ipv4Fields.stamped_verifies _ _ hs hd, hstored⟩
  · change (src ++ d.tunnelled.dstAddr.ip).take 4 = src
    exact List.take_left' hs
  · have hdrop : ((generatedFields id d.proto true false 0).stamped d.forwardedTotal src
        d.tunnelled.dstAddr.ip).drop 16 = (src ++ d.tunnelled.dstAddr.ip).drop 4 := rfl
    rw [hdrop, List.drop_left' hs]
    exact List.take_of_length_le (Nat.le_of_eq hd)

/-- What the server generates for a decoded packet is the captured packet, translated. -/
theorem forwards_generated {d : Datagram} (h : d.WellFormed)
    (hport : key.localPort = d.tunnelled.sourcePort) {strategy strategy' : Ipv4DefaultGenStrategy}
    {object : FullPacketObject} (hgenerated : generateSenderPacket strategy
      d.tunnelled.toQTunnelProxy key d.payload = .ok (object, strategy')) :
    ∃ src, key.serverLocalAddr.toIpv4 = .ok src ∧ Forwards d object.bytes src := by
  have hproto : d.proto = .TCP ∨ d.proto = .UDP := h.packet.transport_header.imp And.left And.left
  obtain ⟨-, src, -, -, -, hsrc, -⟩ := generateSenderPacket_addrs rfl hproto hgenerated
  have hs := NetAddr.toIpv4_length hsrc
  have hdst := NetAddr.toIpv4_of_length _ h.dstAddr_length
  have hsize := h.packet.total_le
  have hnet := h.net_length
  have hkey : d.tunnelled.toQTunnelProxy.fromServer key = d.tunnelled.toQTunnelProxy := by
    rw [QTunnelProxy.fromServer, hport]
  refine ⟨src, hsrc, ?_⟩
  obtain htcp | hudp := hproto
  · obtain ⟨hfills, hlength⟩ := tunnelled_fillsTcp h htcp
    have hreads := hfills.reads
    obtain ⟨id, strategy₁, hsend⟩ := generateSenderPacket_tcp rfl hsrc hdst strategy htcp hreads
      d.payload
    have hheader := tcpFields_tunnelled h htcp
    have hcount : (d.forwardedTransport 0).length = d.transport.length := by
      rw [← hheader, (hreads.complete.layout 0).length_eq, ← hlength]
      exact congrArg (4 * ·) d.tunnelled.toQTunnelProxy.tcpFields_words
    have hge := (h.layout htcp).offset_ge
    have htransport := (h.layout htcp).length_eq
    rw [hkey] at hsend
    simp only [hheader] at hsend
    have htotal : d.forwardedTotal = UInt16.ofNat ((UInt16.ofNat
        (d.forwardedTransport 0).length + UInt16.ofNat d.payload.length).toNat + 20) := by
      rw [Datagram.forwardedTotal, if_pos htcp, hcount, ← UInt16.toNat_inj]
      simp only [UInt16.toNat_ofNat', UInt16.toNat_add]
      omega
    cases Except.ok.inj ((hsend _ htotal).symm.trans hgenerated)
    exact forwards_stamped h id hs (show 16 % 2 = 0 by rfl) (by omega) (by omega)
      (by intro check; rw [← hheader, TcpFields.header_checksum, hheader])
  · obtain ⟨hlength, hvalue⟩ := h.datagramLength hudp
    have hnot : d.proto ≠ .TCP := by
      rw [hudp]
      decide
    have hread : QTunnelUDPViewScheme.getLength ⟨d.tunnelled.protoData.data⟩ =
        .ok (join (d.transport.getD 4 0) (d.transport.getD 5 0)) := by
      rw [Datagram.tunnelled, Datagram.protoBytes, if_neg hnot]
      exact congrArg Except.ok (join_hi_lo _)
    obtain ⟨_, id, strategy₁, -, -, hsend⟩ := generateSenderPacket_udp rfl hsrc hdst strategy
      d.payload hudp hread
    have hheader := udpHeader_tunnelled h hudp
    have hcount : (d.forwardedTransport 0).length = 8 := by
      rw [← hheader, UdpFields.header_length]
    rw [hport] at hsend
    simp only [hheader] at hsend
    have htotal : d.forwardedTotal = UInt16.ofNat ((join (d.transport.getD 4 0)
        (d.transport.getD 5 0) * 4 + UInt16.ofNat d.payload.length).toNat + 20) := by
      rw [Datagram.forwardedTotal, if_neg hnot, ← UInt16.toNat_inj]
      have hfour : (4 : UInt16).toNat = 4 := rfl
      simp only [UInt16.toNat_ofNat', UInt16.toNat_add, UInt16.toNat_mul, hvalue, hfour]
      omega
    cases Except.ok.inj ((hsend _ htotal).symm.trans hgenerated)
    exact forwards_stamped h id hs (show 6 % 2 = 0 by rfl) (by omega) (by omega)
      (by intro check; rw [← hheader, UdpFields.header_checksum, hheader])

end Sent

/-- The packets that a run of the capture loop captures. Each of them goes into the tunnel whole. -/
inductive Captures : List (Option Captured × SendOutcome) → List (Datagram × SendOutcome) → Prop
  | nil : Captures [] []
  | skip {captures items} (net : SendOutcome) (later : Captures captures items) :
    Captures ((none, net) :: captures) items
  | packet {captures items} {c : Captured} {d : Datagram} {behind : List UByte} (net : SendOutcome)
    (holds : c.Holds d behind) (wellFormed : d.WellFormed) (advance : d.OptionsAdvance behind)
    (lossless : Lossless d.payload) (whole : Whole (d.tunnelled, net))
    (later : Captures captures items) : Captures ((some c, net) :: captures) ((d, net) :: items)

/-- A packet that is handed over is the translation of the one that was captured. -/
structure Translates (c : Connections) (d : Datagram) (send : ForwardedPacket) : Prop where
  carries : c.Carries d.tunnelled send
  forwards : ∃ src, send.key.serverLocalAddr.toIpv4 = .ok src ∧ Forwards d send.bytes src

section Path

variable {captures : List (Option Captured × SendOutcome)} {items : List (Datagram × SendOutcome)}

/-- What the loop reads are the packets in their tunnel form. -/
theorem Captures.reads (h : Captures captures items) :
    Reads captures (items.map fun item => (item.1.tunnelled, item.2)) := by
  induction h with
  | nil => exact .nil
  | skip net _ ih => exact .skip net ih
  | packet net holds wellFormed advance _ _ _ ih =>
    exact .read net (wellFormed.readPacket_eq holds advance) ih

/-- What is known of each of them. -/
theorem Captures.of_mem (h : Captures captures items) : ∀ item ∈ items,
    item.1.WellFormed ∧ item.1.tunnelled.Sendable ∧ Whole (item.1.tunnelled, item.2) := by
  induction h with
  | nil =>
    intro item hitem
    cases hitem
  | skip net _ ih => exact ih
  | packet net holds wellFormed advance lossless whole _ ih =>
    intro item hitem
    obtain rfl | hitem := List.mem_cons.mp hitem
    · exact ⟨wellFormed, wellFormed.sendable lossless, whole⟩
    · exact ih item hitem

/-- The form in which packets are sent does not matter for which of them are sent. -/
theorem beforeFailure_map {α β : Type} (f : α → β) (items : List (α × SendOutcome)) :
    beforeFailure (items.map fun item => (f item.1, item.2)) = (beforeFailure items).map f := by
  induction items with
  | nil => rfl
  | cons item items ih =>
    rw [List.map_cons, beforeFailure, beforeFailure, ih]
    split
    · rfl
    · rfl

/-- What is sent before a failure is some of the packets. -/
theorem mem_of_mem_beforeFailure {α : Type} {items : List (α × SendOutcome)} {x : α}
    (h : x ∈ beforeFailure items) : ∃ item ∈ items, item.1 = x := by
  induction items with
  | nil => cases h
  | cons item items ih =>
    rw [beforeFailure] at h
    split at h
    · obtain rfl | h := List.mem_cons.mp h
      · exact ⟨item, List.mem_cons_self .., rfl⟩
      · obtain ⟨item', hitem', rfl⟩ := ih h
        exact ⟨item', List.mem_cons_of_mem _ hitem', rfl⟩
    · cases h

/-- A packet that the server hands over for a captured one is its translation. -/
theorem Connections.Carries.translates {c : Connections} {d : Datagram} {send : ForwardedPacket}
    (h : c.Carries d.tunnelled send) (hd : d.WellFormed) : Translates c d send := by
  obtain ⟨strategy, object, strategy', hgenerated, hbytes⟩ := h.bytes
  obtain ⟨addr, hkey⟩ := h.key
  obtain ⟨src, hsrc, hforwards⟩ := forwards_generated hd
    (show send.key.localPort = d.tunnelled.sourcePort by rw [hkey]; rfl) hgenerated
  rw [← hbytes] at hforwards
  exact ⟨h, src, hsrc, hforwards⟩

/-- Packets that are handed over one after the other are the translations of the captured ones. -/
theorem forall_translates {c : Connections} {datagrams : List Datagram}
    {sends : List ForwardedPacket} (hdatagrams : ∀ d ∈ datagrams, d.WellFormed)
    (h : List.Forall₂ c.Carries (datagrams.map Datagram.tunnelled) sends) :
    List.Forall₂ (Translates c) datagrams sends := by
  have hboth := (List.forall₂_and_left _ _).mpr ⟨hdatagrams, List.forall₂_map_left_iff.mp h⟩
  exact hboth.imp fun d send hd => hd.2.translates hd.1

/-- The first records of a stream decode to the first packets. -/
theorem decodeRecords_take {layers : QVPNLayersSettings} {m m₁ m₂ : QVPNPacketManager}
    {done records : List (List UByte)} {first packets : List (Option QTunnelData)}
    (hdone : done <+: records) (hfirst : decodeRecords layers m done = .ok (first, m₁))
    (hall : decodeRecords layers m records = .ok (packets, m₂)) : first <+: packets := by
  induction done generalizing m records first packets with
  | nil =>
    cases Except.ok.inj hfirst
    exact List.nil_prefix
  | cons record done ih =>
    obtain ⟨later, rfl⟩ := hdone
    obtain ⟨⟨packet, m'⟩, hdecode, hall⟩ := bind_eq_ok_iff.mp hall
    obtain ⟨⟨packet', m''⟩, hdecode', hfirst⟩ := bind_eq_ok_iff.mp hfirst
    cases hdecode.symm.trans hdecode'
    obtain ⟨⟨rest, m₃⟩, hrest, hall⟩ := bind_eq_ok_iff.mp hall
    obtain ⟨⟨rest', m₄⟩, hrest', hfirst⟩ := bind_eq_ok_iff.mp hfirst
    cases Except.ok.inj hall
    cases Except.ok.inj hfirst
    exact List.cons_prefix_cons.mpr ⟨rfl, ih ⟨later, rfl⟩ hrest' hrest⟩

/-- What the server hands over of the records of packets that went into the tunnel. -/
theorem handleRecords_translates {client : Fd} {datagrams : List Datagram}
    (hdatagrams : ∀ d ∈ datagrams, d.WellFormed) {packets : List (UByte × QTunnelData)}
    (hpackets : packets.map Prod.snd = datagrams.map Datagram.tunnelled)
    (hsend : ∀ e ∈ packets, e.2.Sendable) {s s' : RequestState} (hempty : s.manager.Empty)
    (hcached : s.manager.cached = none) {items : List (List UByte × RequestOutcome)}
    (hitems : items.map Prod.fst = recordsOf packets) {goes : Bool}
    (hrun : handleRecords defaultLayers client items s = .ok (goes, s')) :
    ∃ handed later sends, datagrams = handed ++ later ∧
      s'.connections.sends = s.connections.sends ++ sends ∧
      List.Forall₂ (Translates s'.connections) handed sends ∧
      if goes then later = []
      else ∃ lost rest earlier record net, later = lost :: rest ∧
        earlier ++ [(record, net)] <+: items ∧
        s'.decoded = s.decoded ++ earlier.map Prod.fst ++ [record] ∧
        NoSocket s'.connections net.connect lost.tunnelled := by
  obtain ⟨done, first, sends, hstarts, hall, hhandled⟩ := handleRecords_handled hrun
  obtain ⟨decoded, hdecode, hdecoded⟩ := decodeRecords_recordsOf hempty hcached hsend
  have hcarries := hhandled.carries
  cases goes with
  | true =>
    have hdone := hhandled.decode
    rw [hall rfl, hitems, hdecode] at hdone
    obtain ⟨rfl, -⟩ := Prod.mk.inj (Except.ok.inj hdone)
    rw [if_pos rfl, hdecoded, hpackets] at hcarries
    exact ⟨datagrams, [], sends, (List.append_nil _).symm, hhandled.sends_eq,
      forall_translates hdatagrams hcarries, rfl⟩
  | false =>
    obtain ⟨handed, lost, earlier, record, net, hsplit, hforall, hlast, hnowhere⟩ := hcarries
    have hfirst : first.reduceOption <+: decoded.reduceOption :=
      (decodeRecords_take (hitems ▸ hstarts.map Prod.fst) hhandled.decode hdecode).filterMap id
    have hended : s'.decoded = s.decoded ++ earlier.map Prod.fst ++ [record] := by
      rw [hhandled.decoded, hlast, List.map_append, List.append_assoc]
      rfl
    rw [hsplit, hdecoded, hpackets] at hfirst
    obtain ⟨rest, hrest⟩ := hfirst
    rw [List.append_assoc] at hrest
    obtain ⟨front, back, hdata, hfront, hback⟩ := List.map_eq_append_iff.mp hrest.symm
    obtain ⟨d, back, rfl, hd, -⟩ := List.map_eq_cons_iff.mp hback
    subst hfront hd
    refine ⟨front, d :: back, sends, hdata, hhandled.sends_eq, ?_, d, back, earlier, record, net, rfl,
      hlast ▸ hstarts, hended, hnowhere⟩
    exact forall_translates (fun x hx => hdatagrams x
      (by rw [hdata]; exact List.mem_append_left _ hx)) hforall

/-- The connection on which the capture loop starts has the records of the packets that were
captured before a send failed. -/
theorem Captures.records (cred : Credentials) {client : QVPNPacketManager}
    (hclient : client.DefaultConfig) (hcaptures : Captures captures items) :
    ∃ calls client' packets later,
      outgoingCaptureLoop cred defaultLayers client captures = .ok (calls, client') ∧
      connections true calls = (true, recordsOf packets) :: later ∧
      packets.map Prod.snd = (beforeFailure items).map Datagram.tunnelled ∧
      (∀ e ∈ packets, e.2.Sendable) ∧ ∀ d ∈ beforeFailure items, d.WellFormed := by
  have hmem := hcaptures.of_mem
  obtain ⟨calls, client', hcalls, packets, sessions, hconnections, -, hfirst, hsend, -⟩ :=
    connections_outgoingCaptureLoop cred hclient hcaptures.reads
      (by
        intro item hitem
        obtain ⟨item, hcaptured, rfl⟩ := List.mem_map.mp hitem
        exact (hmem item hcaptured).2.1)
      (by
        intro item hitem
        obtain ⟨item, hcaptured, rfl⟩ := List.mem_map.mp hitem
        exact (hmem item hcaptured).2.2)
  rw [beforeFailure_map] at hfirst
  refine ⟨calls, client', packets, _, hcalls, hconnections true, hfirst, hsend, ?_⟩
  intro d hd
  obtain ⟨item, hitem, rfl⟩ := mem_of_mem_beforeFailure hd
  exact (hmem item hitem).1

/-- For every run of the capture loop and every run of the server's thread over the records of the
connection on which it starts: what the server hands to its raw sockets are the translations of the
packets that were captured before a send failed, one for one and in order, and the thread leaves
none out unless there is no socket for it. -/
theorem forwards_captured (cred : Credentials) {client : QVPNPacketManager}
    (hclient : client.DefaultConfig) (hcaptures : Captures captures items) :
    ∃ calls client' records later,
      outgoingCaptureLoop cred defaultLayers client captures = .ok (calls, client') ∧
      connections true calls = (true, records) :: later ∧
      ∀ (fd : Fd) (s s' : RequestState) (goes : Bool) (nets : List RequestOutcome),
        s.manager.Empty → s.manager.cached = none → nets.length = records.length →
        handleRecords defaultLayers fd (records.zip nets) s = .ok (goes, s') →
        ∃ handed lost sends, beforeFailure items = handed ++ lost ∧
          s'.connections.sends = s.connections.sends ++ sends ∧
          List.Forall₂ (Translates s'.connections) handed sends ∧
          if goes then lost = []
          else ∃ d rest earlier record net, lost = d :: rest ∧
            earlier ++ [(record, net)] <+: records.zip nets ∧
            s'.decoded = s.decoded ++ earlier.map Prod.fst ++ [record] ∧
            NoSocket s'.connections net.connect d.tunnelled := by
  obtain ⟨calls, client', packets, later, hcalls, hconnections, hfirst, hsend, hdatagrams⟩ :=
    hcaptures.records cred hclient
  refine ⟨calls, client', recordsOf packets, later, hcalls, hconnections, ?_⟩
  intro fd s s' goes nets hempty hcached hlength hrun
  exact handleRecords_translates hdatagrams hfirst hsend hempty hcached
    (List.map_fst_zip (Nat.le_of_eq hlength.symm)) hrun

/-- The connection request of `capturedSyn`. -/
def synDatagram : Datagram := ⟨.TCP, capturedSyn.take 20, capturedSyn.drop 20, []⟩

theorem synDatagram_wellFormed : synDatagram.WellFormed where
  packet := ⟨by decide, ⟨by decide, by decide⟩, by decide, by decide,
    Or.inl ⟨rfl, ⟨by decide, by decide⟩⟩⟩
  plain := by decide

theorem synCaptured_holds : Captured.Holds ⟨capturedSyn ++ [0], 40⟩ synDatagram [0] where
  mem_eq := rfl
  size_eq := rfl
  behind_ne := List.cons_ne_nil _ _

/-- A capture fails, and the next one is a connection request, which goes out. -/
theorem forwards_captured_syn : ∃ s' sends,
    handleRecords defaultLayers 5 [(synRecord, RequestState.connected)] RequestState.fresh =
        .ok (true, s') ∧
      s'.connections.sends = sends ∧
      List.Forall₂ (Translates s'.connections) [synDatagram] sends := by
  have hcaptures : Captures [(none, answers true), (some ⟨capturedSyn ++ [0], 40⟩, answers true)]
      [(synDatagram, answers true)] :=
    .skip _ (.packet _ synCaptured_holds synDatagram_wellFormed
      (fun _ _ _ hlt => absurd hlt (Nat.not_lt_zero _)) (Or.inl (by decide)) (Or.inl (by decide))
      .nil)
  obtain ⟨calls, client', records, later, hcalls, hconnections, hrun⟩ :=
    forwards_captured guest (initial_defaultConfig .increasing) hcaptures
  have hcomputed : (outgoingCaptureLoop guest defaultLayers (QVPNPacketManager.initial .increasing)
      [(none, answers true), (some ⟨capturedSyn ++ [0], 40⟩, answers true)]).map Prod.fst =
        .ok [.send synRecord true] := rfl
  rw [hcalls] at hcomputed
  cases Except.ok.inj hcomputed
  cases hconnections
  have hhandle : ∃ s', handleRecords defaultLayers 5 [(synRecord, RequestState.connected)]
      RequestState.fresh = .ok (true, s') := ⟨_, rfl⟩
  obtain ⟨s', hhandle⟩ := hhandle
  obtain ⟨handed, lost, sends, hsplit, hsends, hforall, hlost⟩ := hrun 5 RequestState.fresh s' true
    [RequestState.connected] (QVPNPacketManager.initial_empty _) rfl rfl hhandle
  rw [if_pos rfl] at hlost
  rw [hlost, List.append_nil] at hsplit
  refine ⟨s', sends, hhandle, hsends, ?_⟩
  rw [← hsplit] at hforall
  exact hforall

end Path

end QVPN
