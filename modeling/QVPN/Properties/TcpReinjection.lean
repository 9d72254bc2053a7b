import QVPN.Properties.Reinjection

/-!
# TCP packets injected by the client

What the client injects for a decoded TCP packet, when the packet it arrived in has no IP
options: a valid packet with the addresses and ports of the proxy data, the header fields of
the proto data and the decoded payload, under two checksums that verify.
-/

namespace QVPN

open BigEndian Checksum Memory

/-- An IPv4 view of memory counts the words that its first byte declares. -/
theorem Ipv4PacketView.parsePacket_eq {mem : List UByte} {ip : Ipv4PacketView}
    (h : parsePacket mem = .ok ip) : ip = ⟨mem, (declaredWords mem : ℤ) - 5⟩ := by
  obtain ⟨b, hb, h⟩ := bind_eq_ok_iff.mp h
  rw [declaredWords, getD_of_readAt hb]
  exact (Except.ok.inj h).symm

/-- The IPv4 view of views over memory is that of the memory. -/
theorem FullPacketView.ipv4Tcp_parsePacket {mem : List UByte} {size : ℕ} {ip : Ipv4PacketView}
    {transport : TcpPacketView} {range : ℤ × ℤ}
    (h : ipv4Tcp mem size = .ok (.tcp ip transport range)) :
    Ipv4PacketView.parsePacket mem = .ok ip ∧
      ∃ b, readAt (mem.drop ip.getSize.toNat) 12 = .ok b := by
  obtain ⟨ip', hip, h⟩ := bind_eq_ok_iff.mp h
  obtain ⟨transport', htransport, h⟩ := bind_eq_ok_iff.mp h
  obtain ⟨b, hb, -⟩ := bind_eq_ok_iff.mp htransport
  cases Except.ok.inj h
  exact ⟨hip, b, hb⟩

/-- What the pre-parser has looked at when it makes views of a TCP packet. -/
theorem FullPacketView.preParse_tcp {mem : List UByte} {size : ℕ} {ip : Ipv4PacketView}
    {transport : TcpPacketView} {range : ℤ × ℤ}
    (h : preParse mem size = .ok (.tcp ip transport range)) :
    mem.getD 0 0 >>> 4 = NetProtocol.IPv4.val ∧ mem.getD 9 0 = TransportProtocol.TCP.val ∧
      ip = ⟨mem, (declaredWords mem : ℤ) - 5⟩ ∧
      ∃ b, readAt (mem.drop ip.getSize.toNat) 12 = .ok b := by
  obtain ⟨hversion, ⟨hprotocol, htcp⟩ | ⟨-, hudp⟩⟩ := preParse_cases h (by simp)
  · obtain ⟨hip, hb⟩ := ipv4Tcp_parsePacket htcp
    exact ⟨hversion, hprotocol, Ipv4PacketView.parsePacket_eq hip, hb⟩
  · obtain ⟨_, -, hudp⟩ := bind_eq_ok_iff.mp hudp
    cases hudp

/-- A header carries the fields that a scheme reads from proto data. -/
structure CarriesScheme (scheme : QTunnelTCPViewScheme) (header : List UByte) : Prop where
  seq : scheme.getSeq = read32 header 4
  ack : scheme.getAck = read32 header 8
  offset : scheme.getOffset = .ok (header.getD 12 0 >>> 4)
  ns : readAt scheme.data 10 = .ok (header.getD 12 0 &&& 0x1)
  flags : readAt scheme.data 11 = readAt header 13
  window : scheme.getWindow = read16 header 14
  urgent : scheme.getUrgentPointer = read16 header 18
  options : scheme.getOptions = .ok (header.drop 20)

/-- The two headers that a decoded TCP packet is injected with. -/
structure IsReinjectedTcp (proxy : QTunnelProxy) (net transport payload : List UByte) : Prop where
  packet : IsIpv4Packet .TCP net transport payload
  src : (net.drop 12).take 4 = proxy.sourceAddr.ip
  dst : (net.drop 16).take 4 = proxy.dstAddr.ip
  srcPort : read16 transport 0 = .ok proxy.sourcePort
  dstPort : read16 transport 2 = .ok proxy.dstPort
  scheme : CarriesScheme (.ofBytes proxy.protoData.data) transport
  net_checksum : onesSum net 0 = 65535
  transport_checksum : onesSum (TransportIpv4PseudoHeader.data proxy.sourceAddr proxy.dstAddr .TCP
    (UInt16.ofNat (transport.length + payload.length)) ++ transport ++ payload) 0 = 65535

/-- Proto data that goes into a TCP header with all its bits. -/
structure QTunnelProtoData.FillsTcp (p : QTunnelProtoData) : Prop where
  reads : p.ReadsAsTcp
  offset_bits : p.data.getD 12 0 &&& 0xF = p.data.getD 12 0
  ns_bits : p.data.getD 10 0 &&& 0x1 = p.data.getD 10 0
  options_length : p.tcpOptionBytes.length = 4 * (p.tcpOffset - 5)

/-- Proto data collected from a header goes into a header of the same length. -/
theorem collectProtoData_tcp {header behind : List UByte} (hheader : IsTcpLayout header)
    {ip : Ipv4PacketView} {range : ℤ × ℤ} {p : QTunnelProtoData}
    (h : (FullPacketView.tcp ip ⟨header ++ behind, header.length - 20⟩ range).collectProtoData =
      .ok p) :
    p.FillsTcp ∧ p.tcpOffset = declaredOffset header := by
  rw [FullPacketView.collectProtoData,
    TcpPacketView.toView_of_parsed (hheader.parsePacket_view behind), ok_bind] at h
  obtain ⟨bytes, hbytes, h⟩ := bind_eq_ok_iff.mp h
  cases Except.ok.inj h
  have hge := hheader.offset_ge
  have hlength := hheader.length_eq
  obtain ⟨seq, -, hbytes⟩ := bind_eq_ok_iff.mp hbytes
  obtain ⟨ack, -, hbytes⟩ := bind_eq_ok_iff.mp hbytes
  obtain ⟨flags, -, hbytes⟩ := bind_eq_ok_iff.mp hbytes
  obtain ⟨offset, hoffset, hbytes⟩ := bind_eq_ok_iff.mp hbytes
  obtain ⟨window, -, hbytes⟩ := bind_eq_ok_iff.mp hbytes
  obtain ⟨urgent, -, hbytes⟩ := bind_eq_ok_iff.mp hbytes
  obtain ⟨options, hoptions, hbytes⟩ := bind_eq_ok_iff.mp hbytes
  have hcount := slice_length hoptions
  dsimp only at hcount
  cases Except.ok.inj hbytes
  have hfirst : offset = header.getD 12 0 >>> 4 := by
    obtain ⟨b, hb, hoffset⟩ := bind_eq_ok_iff.mp hoffset
    rw [readAt_append_getD (by omega) 0] at hb
    cases Except.ok.inj hb
    exact (Except.ok.inj hoffset).symm
  have hnibble : offset &&& 0xF = offset := by
    rw [hfirst, highNibble_and]
  have hns : flags.getNs &&& 0x1 = flags.getNs := by
    rw [TcpFlagsObject.getNs, UInt16.toUInt8_and]
    generalize (flags.flags >>> 8).toUInt8 = b
    revert b
    exact forall_byte (by decide +kernel)
  generalize hp : bytes16 (15 + UInt16.ofNat options.length) ++ bytes32 seq ++ bytes32 ack ++
    [flags.getNs, flags.getWithoutNs, offset] ++ bytes16 window ++ bytes16 urgent ++ options = data
  have hsize : data.length = 17 + options.length := by
    rw [← hp]
    simp only [List.length_append, bytes16_length, bytes32_length, List.length_cons,
      List.length_nil]
  have hbytes : (⟨data⟩ : QTunnelProtoData).tcpOptionBytes = options := by
    have hle : declaredOffset header ≤ 15 := highNibble_le _
    rw [QTunnelProtoData.tcpOptionBytes]
    dsimp only
    rw [UInt16.toNat_ofNat', Nat.mod_eq_of_lt (by omega),
      List.take_length, ← hp]
    rfl
  have hoffset : (⟨data⟩ : QTunnelProtoData).tcpOffset = declaredOffset header := by
    rw [QTunnelProtoData.tcpOffset, ← hp]
    change (offset &&& 0xF).toNat = _
    rw [hnibble, hfirst]
    rfl
  refine ⟨⟨⟨?_, ?_, ?_⟩, ?_, ?_, ?_⟩, hoffset⟩
  · rw [hsize]
    omega
  · rw [hoffset]
    exact hge
  · rw [hbytes, hoffset]
    omega
  · rw [← hp]
    exact hnibble
  · rw [← hp]
    exact hns
  · rw [hbytes, hoffset]
    omega

/-- The header made from such proto data carries its fields. -/
theorem QTunnelProtoData.FillsTcp.carriesScheme {proxy : QTunnelProxy}
    (h : proxy.protoData.FillsTcp) (sum : UShort) :
    CarriesScheme (.ofBytes proxy.protoData.data) (proxy.tcpFields.header sum) := by
  have hfixed := h.reads.fixed
  refine ⟨?_, ?_, ?_, ?_, ?_, ?_, ?_, ?_⟩
  · have hseq : read32 (proxy.tcpFields.header sum) 4 = .ok proxy.tcpFields.seq :=
      congrArg Except.ok (join32_bytes32 proxy.tcpFields.seq)
    rw [hseq]
    exact read32_getD (show 2 + 3 < proxy.protoData.data.length by omega)
  · have hack : read32 (proxy.tcpFields.header sum) 8 = .ok proxy.tcpFields.ack :=
      congrArg Except.ok (join32_bytes32 proxy.tcpFields.ack)
    rw [hack]
    exact read32_getD (show 6 + 3 < proxy.protoData.data.length by omega)
  · have hbyte : proxy.tcpFields.offset >>> 4 = proxy.protoData.data.getD 12 0 := by
      rw [← UInt8.toNat_inj, QTunnelProxy.tcpFields_words, QTunnelProtoData.tcpOffset,
        h.offset_bits]
    change _ = Except.ok (proxy.tcpFields.offset >>> 4)
    rw [hbyte]
    exact readAt_getD (show 12 < proxy.protoData.data.length by omega) 0
  · change _ = Except.ok (proxy.tcpFields.offset &&& 0x1)
    rw [QTunnelProxy.tcpFields, (offsetByte_parts _ _).2, h.ns_bits]
    exact readAt_getD (show 10 < proxy.protoData.data.length by omega) 0
  · exact readAt_getD (show 11 < proxy.protoData.data.length by omega) 0
  · have hwindow : read16 (proxy.tcpFields.header sum) 14 = .ok proxy.tcpFields.window :=
      congrArg Except.ok (join_hi_lo proxy.tcpFields.window)
    rw [hwindow]
    exact read16_getD (show 13 + 1 < proxy.protoData.data.length by omega)
  · have hurgent : read16 (proxy.tcpFields.header sum) 18 = .ok proxy.tcpFields.urgent :=
      congrArg Except.ok (join_hi_lo proxy.tcpFields.urgent)
    rw [hurgent]
    exact read16_getD (show 15 + 1 < proxy.protoData.data.length by omega)
  · have hall : proxy.tcpFields.options = proxy.protoData.tcpOptionBytes :=
      List.take_of_length_le h.options_length.le
    rw [QTunnelTCPViewScheme.getOptions_eq, ← hall]
    rfl

/-- The headers written for injection are those of a valid packet, with checksums that verify. -/
theorem QTunnelProxy.isReinjectedTcp {mem : List UByte} {proxy : QTunnelProxy}
    (hversion : mem.getD 0 0 >>> 4 = NetProtocol.IPv4.val)
    (hprotocol : mem.getD 9 0 = TransportProtocol.TCP.val) (hwords : declaredWords mem = 5)
    (hsrc : proxy.sourceAddr.ip.length = 4) (hdst : proxy.dstAddr.ip.length = 4)
    (hproto : proxy.protoData.FillsTcp) (payload : List UByte)
    (hsize : 20 + (proxy.tcpFields.header 0).length + payload.length ≤ 65535) :
    IsReinjectedTcp proxy
      ((carrierFields mem).stamped
        (UInt16.ofNat (20 + (proxy.tcpFields.header 0).length + payload.length))
        proxy.sourceAddr.ip proxy.dstAddr.ip)
      (proxy.tcpFields.header (newChecksum (carrierFields mem) proxy (proxy.tcpFields.header 0)
        payload 16)) payload := by
  obtain ⟨hnet, -, hfirst, hninth⟩ := carrierFields_stamped hwords
    (UInt16.ofNat (20 + (proxy.tcpFields.header 0).length + payload.length)) hsrc hdst
  have hproto9 : (⟨(carrierFields mem).protocol⟩ : TransportProtocol) = .TCP :=
    congrArg TransportProtocol.mk (hninth.trans hprotocol)
  have hlength := proxy.tcpFields.header_length
  generalize hsum : newChecksum (carrierFields mem) proxy (proxy.tcpFields.header 0) payload 16 =
    sum
  generalize htotal : UInt16.ofNat (20 + (proxy.tcpFields.header 0).length + payload.length) = total
    at hnet hfirst hninth ⊢
  have hsame : (proxy.tcpFields.header sum).length = (proxy.tcpFields.header 0).length := by
    rw [hlength, hlength]
  have hnat : total.toNat = 20 + (proxy.tcpFields.header 0).length + payload.length := by
    rw [← htotal, UInt16.toNat_ofNat', Nat.mod_eq_of_lt (by omega)]
  have hlayout := hproto.reads.complete.layout sum
  have hge := hlayout.offset_ge
  have hbytes := hlayout.length_eq
  refine ⟨⟨?_, hnet, ?_, ?_, .inl ⟨rfl, hlayout⟩⟩, ?_, ?_, ?_, ?_, hproto.carriesScheme sum, ?_, ?_⟩
  · rw [hfirst, hversion]
  · rw [Ipv4Fields.stamped, (carrierFields mem).header_length total _ hsrc hdst, hsame, ← hnat]
    exact congrArg UInt16.toNat (join_hi_lo total)
  · rw [hninth, hprotocol]
  · change (proxy.sourceAddr.ip ++ proxy.dstAddr.ip).take 4 = _
    exact List.take_left' hsrc
  · have hdrop : ((carrierFields mem).stamped total proxy.sourceAddr.ip proxy.dstAddr.ip).drop 16 =
        (proxy.sourceAddr.ip ++ proxy.dstAddr.ip).drop 4 := rfl
    rw [hdrop, List.drop_left' hsrc]
    exact List.take_of_length_le hdst.le
  · exact congrArg Except.ok (join_hi_lo proxy.sourcePort)
  · exact congrArg Except.ok (join_hi_lo proxy.dstPort)
  · exact (carrierFields mem).stamped_verifies total hsrc hdst
  · have hsegment : UInt16.ofNat ((proxy.tcpFields.header sum).length + payload.length) =
        total - 20 := by
      rw [← UInt16.toNat_inj, UInt16.toNat_sub_of_le, hnat, UInt16.toNat_ofNat', hsame,
        Nat.mod_eq_of_lt (by omega)]
      · change _ = _ - 20
        omega
      · rw [UInt16.le_iff_toNat_le, hnat]
        change 20 ≤ _
        omega
    have hpseudo : (TransportIpv4PseudoHeader.data proxy.sourceAddr proxy.dstAddr .TCP
        (total - 20)).length = 12 := pseudoHeader_length hsrc hdst _ _
    have hstored := checksumStored hpseudo (show 16 % 2 = 0 by rfl)
      (show 16 + 2 ≤ (proxy.tcpFields.header 0).length by omega)
      (show (proxy.tcpFields.header 0).length + payload.length ≤ 65535 by omega)
    rw [newChecksum, hproto9, htotal] at hsum
    rw [hsum, TcpFields.header_checksum] at hstored
    rw [hsegment]
    exact hstored.verifies

/-- Whatever TCP packet without IP options a decoded TCP packet arrives in, the packet made for
injection is valid, carries the proxy data and the payload, and both its checksums verify. -/
theorem newPacketBytesByThis_reinjects {mem : List UByte} {size : ℕ} {ip : Ipv4PacketView}
    {transport : TcpPacketView} {range : ℤ × ℤ}
    (hcarrier : FullPacketView.preParse mem size = .ok (.tcp ip transport range))
    (hplain : declaredWords mem = 5) {header behind : List UByte} (hheader : IsTcpLayout header)
    {view : TcpPacketView} (hview : TcpPacketView.parsePacket (header ++ behind) = .ok view)
    {ip' : Ipv4PacketView} {range' : ℤ × ℤ} {proxy : QTunnelProxy}
    (hproto : (FullPacketView.tcp ip' view range').collectProtoData = .ok proxy.protoData)
    (hsrc : proxy.sourceAddr.ip.length = 4) (hdst : proxy.dstAddr.ip.length = 4)
    (payload : List UByte) (hsize : 20 + header.length + payload.length ≤ 65535) :
    ∃ net transport', (FullPacketView.tcp ip transport range).newPacketBytesByThis proxy payload =
        .ok (net ++ transport' ++ payload) ∧
      IsReinjectedTcp proxy net transport' payload := by
  obtain ⟨hversion, hprotocol, hip, b, hb⟩ := FullPacketView.preParse_tcp hcarrier
  rw [hplain] at hip
  rw [hip] at hb ⊢
  have hmem := lt_of_readAt hb
  rw [List.length_drop] at hmem
  change 12 < mem.length - 20 at hmem
  rw [hheader.parsePacket_view] at hview
  cases Except.ok.inj hview
  obtain ⟨hfills, hoffset⟩ := collectProtoData_tcp hheader hproto
  have hsame : (proxy.tcpFields.header 0).length = header.length := by
    rw [(hfills.reads.complete.layout 0).length_eq, hheader.length_eq, ← hoffset]
    exact congrArg (4 * ·) proxy.tcpFields_words
  refine ⟨_, _, ?_, QTunnelProxy.isReinjectedTcp hversion hprotocol hplain hsrc hdst hfills payload
    (by rw [hsame]; exact hsize)⟩
  have hnew := FullPacketView.newPacketByThis_tcp (by omega) hplain hsrc hdst hfills.reads transport
    range payload
  exact FullPacketView.newPacketBytesByThis_of_ok hnew

/-- Three bytes of payload in a TCP packet without options. -/
def carrierPacket : List UByte :=
  [0x45, 0, 0, 43, 0, 9, 0x40, 0, 64, 6, 0, 0, 10, 0, 0, 1, 10, 0, 0, 2,
    1, 187, 195, 80, 0, 0, 0, 1, 0, 0, 0, 2, 0x50, 0x18, 1, 0, 0, 0, 0, 0, 1, 2, 3]

/-- What a TCP header with an option is tunnelled as. -/
def optionProxy : QTunnelProxy :=
  ⟨.IPv4, .TCP, ⟨[93, 184, 216, 34]⟩, 80, ⟨[192, 168, 0, 2]⟩, 1234,
    ⟨[0, 19, 0, 0, 0, 1, 0, 0, 0, 2, 0, 24, 6, 1, 0, 0, 0, 2, 4, 5, 180]⟩⟩

/-- A header with an option and an odd payload, after a carrier without options. -/
theorem newPacketBytesByThis_reinjects_option :
    ∃ net transport', (FullPacketView.tcp ⟨carrierPacket, 0⟩ ⟨carrierPacket.drop 20, 0⟩
        (40, 43)).newPacketBytesByThis optionProxy [5, 6, 7] =
          .ok (net ++ transport' ++ [5, 6, 7]) ∧
      IsReinjectedTcp optionProxy net transport' [5, 6, 7] :=
  have hcarrier : FullPacketView.preParse carrierPacket 43 = .ok (.tcp ⟨carrierPacket, 0⟩
      ⟨carrierPacket.drop 20, 0⟩ (40, 43)) := rfl
  have hview : TcpPacketView.parsePacket (optionHeader ++ []) = .ok ⟨optionHeader, 4⟩ := rfl
  have hproto : (FullPacketView.tcp ⟨[], 0⟩ ⟨optionHeader, 4⟩ (0, 0)).collectProtoData =
      .ok optionProxy.protoData := rfl
  newPacketBytesByThis_reinjects hcarrier rfl ⟨by decide, by decide⟩ hview hproto rfl rfl _
    (by decide)

end QVPN
