import QVPN.Driver.Server
import QVPN.Properties.GeneratedIpv4
import QVPN.Properties.TcpReinjection
import QVPN.Properties.UdpReinjection

/-!
# Packets that leave the server

The length that a forwarded packet's IP header announces is that of its payload and of what the
transport header takes for its own length. A TCP header answers with its words times four, which
are its bytes. A UDP header multiplies its length field by four, too, and that field holds the
length of the packet that the proto data was collected from.
-/

namespace QVPN

open BigEndian Checksum Memory

/-- Proto data collected from a packet of the proxy's own protocol. -/
def QTunnelProxy.CarriesCollected (data : QTunnelProxy) : Prop :=
  (data.transportProtocol = .TCP ∧ ∃ mem view ip range, TcpPacketView.parsePacket mem = .ok view ∧
    (FullPacketView.tcp ip view range).collectProtoData = .ok data.protoData) ∨
  (data.transportProtocol = .UDP ∧ ∃ view ip range,
    (FullPacketView.udp ip view range).collectProtoData = .ok data.protoData)

/-- The size of the transport header made for the proxy data. -/
def QTunnelProxy.transportSize (data : QTunnelProxy) : ℕ :=
  if data.transportProtocol = .TCP then 4 * data.protoData.tcpOffset else 8

/-- Where a transport header holds its checksum. -/
def checksumPosition (proto : TransportProtocol) : ℕ := if proto = .TCP then 16 else 6

/-- A packet of an IP header that counts all its bytes, a transport header that differs from the
generated one in a checksum over exactly the segment, and the payload. -/
structure IsForwarded (data : QTunnelProxy) (src dst transport payload bytes : List UByte) : Prop
    where
  parts : ∃ net header, bytes = net ++ header ++ payload ∧ net.length = 4 * declaredWords bytes ∧
    ChecksumStored (TransportIpv4PseudoHeader.data ⟨src⟩ ⟨dst⟩ data.transportProtocol
      (UInt16.ofNat (transport.length + payload.length))) transport payload
        (checksumPosition data.transportProtocol) header
  total : ∃ total, read16 bytes 2 = .ok total ∧ total.toNat = bytes.length

/-- What is sent for proxy data and payload is consistent. -/
def SendsConsistent (strategy : Ipv4DefaultGenStrategy) (data : QTunnelProxy)
    (key : QVPNServerSocketData) (src dst payload : List UByte) : Prop :=
  ∃ object strategy' generated transport,
    generateSenderPacket strategy data key payload = .ok (object, strategy') ∧
      generateTransportHeader data key = .ok generated ∧ generated.toBytes = .ok transport ∧
        IsForwarded data src dst transport payload object.bytes

/-- A view whose options can be read is one of a header with bytes behind it. -/
theorem exists_layout_of_options {mem options : List UByte} {view : TcpPacketView}
    (hview : TcpPacketView.parsePacket mem = .ok view) (hoptions : view.getTcpOptions = .ok options) :
    ∃ header behind, IsTcpLayout header ∧ view = ⟨header ++ behind, header.length - 20⟩ := by
  obtain ⟨b, hb, hview⟩ := bind_eq_ok_iff.mp hview
  cases Except.ok.inj hview
  obtain ⟨-, hle, hfits, -⟩ := slice_eq_ok_iff.mp hoptions
  dsimp only at hle hfits
  have hlength : (mem.take (4 * (b >>> 4).toNat)).length = 4 * (b >>> 4).toNat :=
    List.length_take_of_le (by omega)
  have hfirst : declaredOffset (mem.take (4 * (b >>> 4).toNat)) = (b >>> 4).toNat := by
    rw [declaredOffset, getD_take (by omega), getD_of_readAt hb]
  refine ⟨mem.take (4 * (b >>> 4).toNat), mem.drop (4 * (b >>> 4).toNat), ⟨?_, ?_⟩, ?_⟩
  · rw [hfirst]
    omega
  · rw [hfirst, hlength]
  · rw [List.take_append_drop, hlength]
    congr 1
    omega

/-- Collecting proto data reads the options. -/
theorem getTcpOptions_of_collected {mem : List UByte} {view : TcpPacketView} {ip : Ipv4PacketView}
    {range : ℤ × ℤ} {p : QTunnelProtoData} (hview : TcpPacketView.parsePacket mem = .ok view)
    (h : (FullPacketView.tcp ip view range).collectProtoData = .ok p) :
    ∃ options, view.getTcpOptions = .ok options := by
  rw [FullPacketView.collectProtoData, TcpPacketView.toView_of_parsed hview, ok_bind] at h
  obtain ⟨bytes, hbytes, -⟩ := bind_eq_ok_iff.mp h
  obtain ⟨_, -, hbytes⟩ := bind_eq_ok_iff.mp hbytes
  obtain ⟨_, -, hbytes⟩ := bind_eq_ok_iff.mp hbytes
  obtain ⟨_, -, hbytes⟩ := bind_eq_ok_iff.mp hbytes
  obtain ⟨_, -, hbytes⟩ := bind_eq_ok_iff.mp hbytes
  obtain ⟨_, -, hbytes⟩ := bind_eq_ok_iff.mp hbytes
  obtain ⟨_, -, hbytes⟩ := bind_eq_ok_iff.mp hbytes
  obtain ⟨options, hoptions, -⟩ := bind_eq_ok_iff.mp hbytes
  exact ⟨options, hoptions⟩

/-- Proto data that could be collected from a TCP view goes into a TCP header. -/
theorem fillsTcp_of_collected {mem : List UByte} {view : TcpPacketView} {ip : Ipv4PacketView}
    {range : ℤ × ℤ} {p : QTunnelProtoData} (hview : TcpPacketView.parsePacket mem = .ok view)
    (h : (FullPacketView.tcp ip view range).collectProtoData = .ok p) : p.FillsTcp := by
  obtain ⟨options, hoptions⟩ := getTcpOptions_of_collected hview h
  obtain ⟨header, behind, hlayout, rfl⟩ := exists_layout_of_options hview hoptions
  exact (collectProtoData_tcp hlayout h).1

section Net

variable {data : QTunnelProxy} {key : QVPNServerSocketData} {src dst : List UByte}
  (hsrc : key.serverLocalAddr.toIpv4 = .ok src) (hdst : data.dstAddr.toIpv4 = .ok dst)
include hsrc hdst

/-- The IP header that is generated, whose bytes are those of its view. -/
theorem generateNetHeader_stamped (hnet : data.netProtocol = .IPv4)
    (strategy : Ipv4DefaultGenStrategy) (total : UShort) :
    ∃ id net strategy', generateNetHeader strategy data key total = .ok (net, strategy') ∧
      net.toBytes = .ok ((generatedFields id data.transportProtocol true false 0).stamped
        (UInt16.ofNat (total.toNat + 20)) src dst) := by
  obtain ⟨id, strategy', hgenerated⟩ := generateObjectBytes_stamped strategy hsrc hdst
    data.transportProtocol total true false 0
  have hs := NetAddr.toIpv4_length hsrc
  have hd := NetAddr.toIpv4_length hdst
  generalize UInt16.ofNat (total.toNat + 20) = total' at hgenerated ⊢
  have hwords := generatedFields_words id data.transportProtocol true false 0
  have hlayout := (generatedFields id data.transportProtocol true false 0).isIpv4Layout hwords total'
    ((generatedFields id data.transportProtocol true false 0).checksum total' src dst) hs hd
  have hobject := hlayout.parsePacket_object []
  have hview := hlayout.parsePacket_plain hwords []
  rw [List.append_nil] at hobject hview
  refine ⟨id, .ipv4 ⟨(generatedFields id data.transportProtocol true false 0).stamped total' src dst⟩,
    strategy', ?_, ?_⟩
  · rw [generateNetHeader, if_pos hnet, Ipv4PacketLittleEndian.generateObject, hgenerated, ok_bind]
    dsimp only
    rw [Ipv4Fields.stamped, hobject]
    rfl
  · rw [NetPacketObject.toBytes, Ipv4Fields.stamped]
    dsimp only
    rw [hview, ok_bind, Ipv4PacketView.toNetBytes]
    exact slice_all _ _ (by rw [Ipv4Fields.header_length _ _ _ hs hd]; rfl)

end Net

/-- The proxy data whose source port is the one of the connection. -/
def QTunnelProxy.fromServer (data : QTunnelProxy) (key : QVPNServerSocketData) : QTunnelProxy :=
  { data with sourcePort := key.localPort }

section Transport

variable {data : QTunnelProxy} (key : QVPNServerSocketData)

/-- The TCP header that is generated, whose words are its bytes. -/
theorem generateTransportHeader_tcp (htcp : data.transportProtocol = .TCP)
    (hproto : data.protoData.ReadsAsTcp) :
    ∃ generated, generateTransportHeader data key = .ok generated ∧
      generated.toBytes = .ok ((data.fromServer key).tcpFields.header 0) ∧
      generated.getTransportLength =
        .ok (UInt16.ofNat ((data.fromServer key).tcpFields.header 0).length) := by
  have hreads : (data.fromServer key).protoData.ReadsAsTcp := hproto
  obtain ⟨hseq, hack, hoffset, hflags, hwindow, hurgent⟩ := hreads.scheme_reads
  have hlayout := hreads.complete.layout 0
  have hview := hlayout.parsePacket_view []
  rw [List.append_nil] at hview
  refine ⟨.tcp ⟨(data.fromServer key).tcpFields.header 0⟩, ?_, ?_, ?_⟩
  · have hgenerated := hreads.generateObject
    have hoptions := QTunnelTCPViewScheme.getOptions_eq data.protoData
    rw [generateTransportHeader, if_pos htcp]
    dsimp only [QTunnelProxy.fromServer] at hseq hack hoffset hflags hwindow hurgent hgenerated ⊢
    rw [hoptions, ok_bind, hseq, ok_bind, hack, ok_bind, hoffset, ok_bind, hflags, ok_bind, hwindow,
      ok_bind, hurgent, ok_bind, hgenerated]
    rfl
  · rw [TransportPacketObject.toBytes, hview, ok_bind, TcpPacketView.toTransportBytes]
    exact slice_all _ _ (by dsimp only; omega)
  · have hge := hlayout.offset_ge
    have hlength := hlayout.length_eq
    have hnibble : declaredOffset ((data.fromServer key).tcpFields.header 0) ≤ 15 := highNibble_le _
    rw [TransportPacketObject.getTransportLength, TcpPacketLittleEndian.getTransportLength]
    dsimp only
    rw [readAt_getD (by omega) 0, ok_bind, hlength]
    congr 1
    rw [← UInt16.toNat_inj, UInt16.toNat_ofNat', UInt16.toNat_mul, UInt8.toNat_toUInt16]
    change declaredOffset _ * 4 % 65536 = _
    omega

/-- The UDP header that is generated, whose length field is taken for words. -/
theorem generateTransportHeader_udp (hudp : data.transportProtocol = .UDP) {length : UShort}
    (hlength : QTunnelUDPViewScheme.getLength ⟨data.protoData.data⟩ = .ok length) :
    ∃ generated, generateTransportHeader data key = .ok generated ∧
      generated.toBytes = .ok (UdpFields.header ⟨key.localPort, data.dstPort⟩ length 0) ∧
      generated.getTransportLength = .ok (length * 4) := by
  refine ⟨.udp ⟨UdpFields.header ⟨key.localPort, data.dstPort⟩ length 0⟩, ?_, ?_, ?_⟩
  · rw [generateTransportHeader, if_neg (by rw [hudp]; decide), if_pos hudp]
    dsimp only
    rw [hlength]
    rfl
  · rw [TransportPacketObject.toBytes, UdpPacketView.toTransportBytes]
    exact slice_all _ _ rfl
  · have hread : read16 (UdpFields.header ⟨key.localPort, data.dstPort⟩ length 0) 4 = .ok length :=
      congrArg Except.ok (join_hi_lo length)
    rw [TransportPacketObject.getTransportLength, UdpPacketLittleEndian.getTransportLength]
    dsimp only
    rw [hread]
    rfl

end Transport

/-- What a packet is made of, when its parts are generated. -/
theorem generateSenderPacket_eq {strategy strategy' : Ipv4DefaultGenStrategy} {data : QTunnelProxy}
    {key : QVPNServerSocketData} {payload n t : List UByte} {size : UShort}
    {generated : TransportPacketObject} {net : NetPacketObject} {packet : FullPacketObject}
    (htransport : generateTransportHeader data key = .ok generated)
    (hsize : generated.getTransportLength = .ok size) (ht : generated.toBytes = .ok t)
    (hnet : generateNetHeader strategy data key (size + UInt16.ofNat payload.length) =
      .ok (net, strategy')) (hn : net.toBytes = .ok n)
    (hpacket : (data.transportProtocol = .TCP ∧ FullPacketObject.ofTcp n t payload = .ok packet) ∨
      (data.transportProtocol = .UDP ∧ FullPacketObject.ofUdp n t payload = .ok packet)) :
    generateSenderPacket strategy data key payload =
      packet.recalculateChecksums >>= fun packet => .ok (packet, strategy') := by
  have hfull : generateFullPacket data net generated payload = .ok packet := by
    rw [generateFullPacket]
    obtain ⟨htcp, hof⟩ | ⟨hudp, hof⟩ := hpacket
    · rw [if_pos htcp, hn, ok_bind, ht, ok_bind, hof]
    · rw [if_neg (by rw [hudp]; decide), if_pos hudp, hn, ok_bind, ht, ok_bind, hof]
  rw [generateSenderPacket, htransport, ok_bind, hsize, ok_bind, hnet, ok_bind]
  dsimp only
  rw [hfull]
  rfl

section Sent

variable {data : QTunnelProxy} {key : QVPNServerSocketData} {src dst payload : List UByte}

/-- A stamped header whose total length is right makes a consistent packet. -/
theorem isForwarded_stamped (id total : UShort) (hs : src.length = 4) (hd : dst.length = 4)
    {t header : List UByte} (hlength : checksumPosition data.transportProtocol + 2 ≤ t.length)
    (htotal : total.toNat = 20 + t.length + payload.length)
    (hheader : header = t.take (checksumPosition data.transportProtocol) ++ bytes16 (complement
      (segmentSum (TransportIpv4PseudoHeader.data ⟨src⟩ ⟨dst⟩ data.transportProtocol (total - 20)) t
        payload (checksumPosition data.transportProtocol))) ++
      t.drop (checksumPosition data.transportProtocol + 2)) :
    IsForwarded data src dst t payload ((generatedFields id data.transportProtocol true false
      0).stamped total src dst ++ header ++ payload) := by
  have hbound := total.toNat_lt
  have hnet : ((generatedFields id data.transportProtocol true false 0).stamped total src dst).length =
      20 := Ipv4Fields.header_length _ _ _ hs hd
  have heven : checksumPosition data.transportProtocol % 2 = 0 := by
    rw [checksumPosition]
    split
    · rfl
    · rfl
  have hsegment : total - 20 = UInt16.ofNat (t.length + payload.length) := by
    rw [← UInt16.toNat_inj, UInt16.toNat_sub_of_le, htotal, UInt16.toNat_ofNat',
      Nat.mod_eq_of_lt (by omega)]
    · change 20 + t.length + payload.length - 20 = _
      omega
    · rw [UInt16.le_iff_toNat_le, htotal]
      change 20 ≤ _
      omega
  have hstored := checksumStored (pseudoHeader_length hs hd data.transportProtocol
    (UInt16.ofNat (t.length + payload.length))) heven hlength
    (show t.length + payload.length ≤ 65535 by omega)
  rw [hsegment] at hheader
  rw [← hheader] at hstored
  have hsame : header.length = t.length := by
    rw [hheader]
    simp only [List.length_append, List.length_take, List.length_drop, bytes16_length]
    omega
  constructor
  · refine ⟨_, header, rfl, ?_, hstored⟩
    change _ = 4 * ((generatedFields id data.transportProtocol true false 0).first &&& 0xF).toNat
    rw [generatedFields_words, hnet]
  · refine ⟨total, congrArg Except.ok (join_hi_lo total), ?_⟩
    rw [List.length_append, List.length_append, hnet, hsame, htotal]

variable (hnet : data.netProtocol = .IPv4) (hsrc : key.serverLocalAddr.toIpv4 = .ok src)
  (hdst : data.dstAddr.toIpv4 = .ok dst) (strategy : Ipv4DefaultGenStrategy)
include hnet hsrc hdst

/-- Over TCP the packet is consistent. -/
theorem sendsConsistent_tcp (htcp : data.transportProtocol = .TCP)
    (hproto : data.protoData.ReadsAsTcp)
    (hsize : 20 + 4 * data.protoData.tcpOffset + payload.length ≤ 65535) :
    SendsConsistent strategy data key src dst payload := by
  obtain ⟨generated, htransport, ht, hlength⟩ := generateTransportHeader_tcp key htcp hproto
  have hreads : (data.fromServer key).protoData.ReadsAsTcp := hproto
  have hcount : ((data.fromServer key).tcpFields.header 0).length = 4 * data.protoData.tcpOffset := by
    rw [(hreads.complete.layout 0).length_eq]
    exact congrArg (4 * ·) (data.fromServer key).tcpFields_words
  have hge := hproto.offset_ge
  obtain ⟨id, net, strategy', hip, hn⟩ := generateNetHeader_stamped hsrc hdst hnet strategy
    (UInt16.ofNat ((data.fromServer key).tcpFields.header 0).length + UInt16.ofNat payload.length)
  have hs := NetAddr.toIpv4_length hsrc
  have hd := NetAddr.toIpv4_length hdst
  have hwords := generatedFields_words id data.transportProtocol true false 0
  generalize htotal : UInt16.ofNat ((UInt16.ofNat ((data.fromServer key).tcpFields.header 0).length +
    UInt16.ofNat payload.length).toNat + 20) = total at hn
  have hnat : total.toNat = 20 + ((data.fromServer key).tcpFields.header 0).length +
      payload.length := by
    rw [← htotal, UInt16.toNat_ofNat', UInt16.toNat_add, UInt16.toNat_ofNat', UInt16.toNat_ofNat']
    omega
  have hpacket := ofTcp_header _ hwords total
    ((generatedFields id data.transportProtocol true false 0).checksum total src dst) hs hd
    hreads.complete payload
  have hrecalc := recalculateChecksums_tcp _ hwords total
    ((generatedFields id data.transportProtocol true false 0).checksum total src dst) hs hd
    hreads.complete 0 payload
  have hsend := generateSenderPacket_eq htransport hlength ht hip hn (Or.inl ⟨htcp, hpacket⟩)
  rw [hrecalc, ok_bind] at hsend
  refine ⟨_, strategy', generated, _, hsend, htransport, ht, ?_⟩
  have hposition : checksumPosition data.transportProtocol = 16 := if_pos htcp
  apply isForwarded_stamped id total hs hd _ hnat
  · rw [hposition, TcpFields.header_checksum]
    rfl
  · rw [hposition]
    omega

/-- Over UDP the packet is sent with a total length in which the length field counts four times. -/
theorem generateSenderPacket_udp (payload : List UByte) (hudp : data.transportProtocol = .UDP) {length : UShort}
    (hlength : QTunnelUDPViewScheme.getLength ⟨data.protoData.data⟩ = .ok length) :
    ∃ generated id strategy', generateTransportHeader data key = .ok generated ∧
      generated.toBytes = .ok (UdpFields.header ⟨key.localPort, data.dstPort⟩ length 0) ∧
      ∀ total, total = UInt16.ofNat ((length * 4 + UInt16.ofNat payload.length).toNat + 20) →
        generateSenderPacket strategy data key payload = .ok (.udp
          ((generatedFields id data.transportProtocol true false 0).stamped total src dst ++
            UdpFields.header ⟨key.localPort, data.dstPort⟩ length (complement (segmentSum
              (TransportIpv4PseudoHeader.data ⟨src⟩ ⟨dst⟩ data.transportProtocol (total - 20))
                (UdpFields.header ⟨key.localPort, data.dstPort⟩ length 0) payload 6)) ++ payload),
          strategy') := by
  obtain ⟨generated, htransport, ht, hsize⟩ := generateTransportHeader_udp key hudp hlength
  obtain ⟨id, net, strategy', hip, hn⟩ := generateNetHeader_stamped hsrc hdst hnet strategy
    (length * 4 + UInt16.ofNat payload.length)
  refine ⟨generated, id, strategy', htransport, ht, ?_⟩
  rintro total rfl
  have hs := NetAddr.toIpv4_length hsrc
  have hd := NetAddr.toIpv4_length hdst
  have hwords := generatedFields_words id data.transportProtocol true false 0
  generalize UInt16.ofNat ((length * 4 + UInt16.ofNat payload.length).toNat + 20) = total at hn ⊢
  have hpacket := ofUdp_header _ hwords total
    ((generatedFields id data.transportProtocol true false 0).checksum total src dst) hs hd
    ⟨key.localPort, data.dstPort⟩ length payload
  have hrecalc := recalculateChecksums_udp _ hwords total
    ((generatedFields id data.transportProtocol true false 0).checksum total src dst) hs hd
    ⟨key.localPort, data.dstPort⟩ length 0 payload
  have hsend := generateSenderPacket_eq htransport hsize ht hip hn (Or.inr ⟨hudp, hpacket⟩)
  rw [hrecalc, ok_bind] at hsend
  exact hsend

/-- Over UDP the packet is consistent exactly when four times the length field is eight. -/
theorem sendsConsistent_udp_iff (hudp : data.transportProtocol = .UDP) {length : UShort}
    (hlength : QTunnelUDPViewScheme.getLength ⟨data.protoData.data⟩ = .ok length)
    (hsize : 28 + payload.length ≤ 65535) :
    SendsConsistent strategy data key src dst payload ↔ length * 4 = 8 := by
  obtain ⟨generated, id, strategy', htransport, ht, hsend⟩ := generateSenderPacket_udp hnet hsrc hdst
    strategy payload hudp hlength
  have hs := NetAddr.toIpv4_length hsrc
  have hd := NetAddr.toIpv4_length hdst
  have hposition : checksumPosition data.transportProtocol = 6 :=
    if_neg (by rw [hudp]; decide)
  generalize htotal : UInt16.ofNat ((length * 4 + UInt16.ofNat payload.length).toNat + 20) = total
    at hsend
  have hsend := hsend total rfl
  have height (check : UShort) :
      (UdpFields.header ⟨key.localPort, data.dstPort⟩ length check).length = 8 :=
    UdpFields.header_length _ _ _
  have hnat : total.toNat = 28 + payload.length ↔ length * 4 = 8 := by
    have hlt := (length * 4).toNat_lt
    rw [← UInt16.toNat_inj, ← htotal, UInt16.toNat_ofNat', UInt16.toNat_add, UInt16.toNat_ofNat']
    change _ ↔ (length * 4).toNat = 8
    omega
  constructor
  · rintro ⟨object, _, _, _, hsend', -, -, hforwarded⟩
    cases hsend.symm.trans hsend'
    obtain ⟨total', htotal', hcount⟩ := hforwarded.total
    have hread : read16 ((generatedFields id data.transportProtocol true false 0).stamped total src
        dst ++ UdpFields.header ⟨key.localPort, data.dstPort⟩ length (complement (segmentSum
          (TransportIpv4PseudoHeader.data ⟨src⟩ ⟨dst⟩ data.transportProtocol (total - 20))
            (UdpFields.header ⟨key.localPort, data.dstPort⟩ length 0) payload 6)) ++ payload) 2 =
        .ok total := congrArg Except.ok (join_hi_lo total)
    cases hread.symm.trans htotal'
    rw [FullPacketObject.bytes, List.length_append, List.length_append, height, Ipv4Fields.stamped,
      Ipv4Fields.header_length _ _ _ hs hd] at hcount
    exact hnat.mp hcount
  · intro height'
    refine ⟨_, strategy', generated, _, hsend, htransport, ht, ?_⟩
    apply isForwarded_stamped id total hs hd
    · rw [hposition, height]
    · rw [height]
      exact hnat.mpr height'
    · rw [hposition, UdpFields.header_checksum]

/-- A packet for collected proto data is consistent, over UDP exactly when four times the length
that was collected is eight. -/
theorem generateSenderPacket_consistent_iff (hproto : data.CarriesCollected)
    (hsize : 20 + data.transportSize + payload.length ≤ 65535) :
    SendsConsistent strategy data key src dst payload ↔ (data.transportProtocol = .UDP →
      ∀ length, QTunnelUDPViewScheme.getLength ⟨data.protoData.data⟩ = .ok length →
        length * 4 = 8) := by
  obtain ⟨htcp, mem, view, ip, range, hview, hcollect⟩ | ⟨hudp, view, ip, range, hcollect⟩ := hproto
  · have hreads := (fillsTcp_of_collected hview hcollect).reads
    rw [QTunnelProxy.transportSize, if_pos htcp] at hsize
    refine iff_of_true (sendsConsistent_tcp hnet hsrc hdst strategy htcp hreads hsize) ?_
    intro hudp
    rw [htcp] at hudp
    exact absurd hudp (by decide)
  · obtain ⟨bytes, hbytes, hcollect⟩ := bind_eq_ok_iff.mp hcollect
    obtain ⟨length, -, hbytes⟩ := bind_eq_ok_iff.mp hbytes
    have hdata : data.protoData.data = bytes16 2 ++ bytes16 length := by
      rw [← Except.ok.inj hcollect]
      exact (Except.ok.inj hbytes).symm
    have hlength : QTunnelUDPViewScheme.getLength ⟨data.protoData.data⟩ = .ok length := by
      rw [hdata]
      exact congrArg Except.ok (join_hi_lo length)
    rw [QTunnelProxy.transportSize, if_neg (by rw [hudp]; decide)] at hsize
    rw [sendsConsistent_udp_iff hnet hsrc hdst strategy hudp hlength (by omega)]
    constructor
    · intro height _ length' hlength'
      cases hlength.symm.trans hlength'
      exact height
    · intro h
      exact h hudp length hlength

end Sent

/-- A connection of the server. -/
def serverKey : QVPNServerSocketData :=
  ⟨.IPv4, .TCP, ⟨[10, 0, 0, 2]⟩, ⟨[192, 168, 0, 2]⟩, 1234, ⟨[93, 184, 216, 34]⟩, 80⟩

/-- A TCP packet with an option and an odd payload. -/
theorem generateSenderPacket_consistent_option :
    SendsConsistent .default optionProxy serverKey [192, 168, 0, 2] [192, 168, 0, 2] [5, 6, 7] :=
  have hview : TcpPacketView.parsePacket optionHeader = .ok ⟨optionHeader, 4⟩ := rfl
  have hproto : optionProxy.CarriesCollected :=
    Or.inl ⟨rfl, optionHeader, _, ⟨[], 0⟩, (0, 0), hview, rfl⟩
  (generateSenderPacket_consistent_iff rfl rfl rfl .default hproto (by decide)).mpr
    fun hudp => absurd hudp (by decide)

/-- Proxy data of a datagram with one byte of payload. -/
def oneByteProxy : QTunnelProxy :=
  ⟨.IPv4, .UDP, ⟨[10, 0, 0, 2]⟩, 53, ⟨[93, 184, 216, 34]⟩, 53, ⟨[0, 2, 0, 9]⟩⟩

/-- The datagram is sent in a packet of 29 bytes whose header announces 57. -/
theorem generateSenderPacket_datagram_inconsistent :
    (generateSenderPacket .default oneByteProxy serverKey [7]).map
        (fun sent => (sent.1.bytes.length, read16 sent.1.bytes 2)) = .ok (29, .ok 57) ∧
      oneByteProxy.CarriesCollected ∧
      ¬ SendsConsistent .default oneByteProxy serverKey [192, 168, 0, 2] [93, 184, 216, 34] [7] := by
  have hproto : oneByteProxy.CarriesCollected :=
    Or.inr ⟨rfl, ⟨[0, 53, 0, 53, 0, 9, 0, 0]⟩, ⟨[], 0⟩, (0, 0), rfl⟩
  refine ⟨by decide +kernel, hproto, ?_⟩
  rw [sendsConsistent_udp_iff rfl rfl rfl .default rfl rfl (by decide)]
  decide

end QVPN
