import QVPN.Driver.Inject
import QVPN.Properties.ChecksumHelper
import QVPN.Properties.UdpReinjection

/-!
# The protocol of injected packets

The carrier chooses the class of an injected packet and with it the scheme that the decoded
proto data is read with; its IP header keeps the carrier's protocol. The injected packet
carries the decoded transport protocol exactly when the carrier does too, has no IP options,
and the proto data is long enough for its scheme. A UDP header is left with the length of an
empty datagram.

The number of bytes that is injected is the size of a view object, whatever the size of the packet. A
longer packet is cut, and behind a shorter one the memory of the packet is left.
-/

namespace QVPN

open BigEndian Checksum Memory

/-- A packet carries the decoded transport protocol: its IP header says so, and a transport
header of that protocol made from the decoded proxy data stands before the bytes behind it. -/
structure KeepsProtocol (decoded : QTunnelData) (behind packet : List UByte) : Prop where
  protocol : packet.getD 9 0 = decoded.transportProtocol.val
  transport : (decoded.transportProtocol = .TCP ∧ ∃ sum,
      packet.drop (4 * declaredWords packet) = decoded.tcpFields.header sum ++ behind) ∨
    (decoded.transportProtocol = .UDP ∧ ∃ length sum, length.toNat = 8 + decoded.data.length ∧
      packet.drop (4 * declaredWords packet) = decoded.udpFields.header length sum ++ behind)

/-- The bytes that are injected for a send carry the decoded transport protocol. -/
def WinDivertSend.Keeps (send : WinDivertSend) (decoded : QTunnelData) (behind : List UByte) : Prop :=
  ∃ bytes, send.injected = .ok bytes ∧ KeepsProtocol decoded behind bytes

/-- The walk over the options made from proto data, in front of the payload, can step over each
of them. -/
def QTunnelData.OptionsReadable (decoded : QTunnelData) : Prop :=
  TcpOptionsView.OptionsReadable (decoded.tcpFields.options ++ decoded.data)
    decoded.tcpFields.options.length 0

/-- The options of a header are too few for the size of the walk to wrap. -/
theorem QTunnelData.optionsReadable_iff {decoded : QTunnelData}
    (h : decoded.protoData.ReadsAsTcp) :
    (∃ options, TcpOptionsView.toTcpOptionsFriendlyView (decoded.tcpFields.options ++ decoded.data)
      decoded.tcpFields.options.length = .ok options) ↔ decoded.OptionsReadable := by
  have hlength := h.complete.options_length
  have hwords : (decoded.tcpFields.offset >>> 4).toNat < 256 := UInt8.toNat_lt _
  exact TcpOptionsView.toTcpOptionsFriendlyView_ok_iff (by rw [List.length_append]; omega) (by omega)

/-- A carrier without IP options carries the decoded transport protocol itself, and the proto
data makes a header of it. -/
def QTunnelData.Suits (decoded : QTunnelData) (packet : List UByte) (package : FullPacketView) :
    Prop :=
  declaredWords packet = 5 ∧
    match package with
    | .tcp _ _ _ => decoded.transportProtocol = .TCP ∧ decoded.protoData.ReadsAsTcp ∧
        decoded.OptionsReadable
    | .udp _ _ _ => decoded.transportProtocol = .UDP ∧ 4 ≤ decoded.protoData.data.length ∧
        decoded.data = []
    | .dummy => False

/-- The size of the headers of a packet that is made after a carrier. -/
def QTunnelData.headersSize (decoded : QTunnelData) : FullPacketView → ℕ
  | .tcp _ _ _ => 40 + decoded.tcpFields.options.length
  | .udp _ _ _ => 28
  | .dummy => 0

section Requirements

/-- A new header is made only after a header without options: the copy of a longer one ends
one byte before the last word that its checksum adds, and a shorter one has no room for the
addresses. -/
theorem Ipv4PacketView.generateObject_requires {mem : List UByte} {src dst : NetAddr}
    {total : UShort} {net : Ipv4PacketLittleEndian} (hdst : dst.ip.length = 4)
    (h : generateObject ⟨mem, (declaredWords mem : ℤ) - 5⟩ src dst total = .ok net) :
    declaredWords mem = 5 ∧ 20 ≤ mem.length := by
  obtain ⟨_, h, -⟩ := bind_eq_ok_iff.mp h
  obtain ⟨bytes, hbytes, h⟩ := bind_eq_ok_iff.mp h
  obtain ⟨view, hview, h⟩ := bind_eq_ok_iff.mp h
  obtain ⟨view₁, hsetSrc, h⟩ := bind_eq_ok_iff.mp h
  obtain ⟨view₂, hsetDst, h⟩ := bind_eq_ok_iff.mp h
  obtain ⟨view₃, hsetTotal, h⟩ := bind_eq_ok_iff.mp h
  obtain ⟨view₄, hchecksum, -⟩ := bind_eq_ok_iff.mp h
  obtain ⟨-, -, hfits, hcut⟩ := slice_eq_ok_iff.mp hbytes
  have hlength := slice_length hbytes
  dsimp only at hlength hcut hfits
  have hwords : declaredWords bytes = declaredWords mem := by
    rw [hcut]
    exact congrArg (fun b : UByte => (b &&& 0xF).toNat) (getD_take (by omega) _ _)
  rw [Ipv4PacketView.parsePacket_eq hview, hwords] at hsetSrc
  obtain ⟨header₁, hheader₁, hsetSrc⟩ := bind_eq_ok_iff.mp hsetSrc
  cases Except.ok.inj hsetSrc
  obtain ⟨header₂, hheader₂, hsetDst⟩ := bind_eq_ok_iff.mp hsetDst
  cases Except.ok.inj hsetDst
  obtain ⟨header₃, hheader₃, hsetTotal⟩ := bind_eq_ok_iff.mp hsetTotal
  cases Except.ok.inj hsetTotal
  obtain ⟨header₄, hheader₄, hchecksum⟩ := bind_eq_ok_iff.mp hchecksum
  obtain ⟨_, -, hchecksum⟩ := bind_eq_ok_iff.mp hchecksum
  obtain ⟨_, hadditional, -⟩ := bind_eq_ok_iff.mp hchecksum
  dsimp only at hheader₁ hheader₂ hheader₃ hheader₄ hadditional
  have hsame : header₄.length = bytes.length := by
    rw [write16_length hheader₄, write16_length hheader₃, overwrite_length hheader₂,
      overwrite_length hheader₁]
  have hroom := overwrite_fits hheader₂
  rw [overwrite_length hheader₁, hdst] at hroom
  have hle : declaredWords mem ≤ 5 := by
    by_contra hmore
    have hlt := sumWords_lt hadditional (declaredWords mem - 6)
      (List.mem_range.mpr (by omega))
    rw [List.length_drop] at hlt
    omega
  omega

/-- A TCP header is copied only out of memory that holds the options it declares. -/
theorem TcpPacketLittleEndian.parsePacket_requires {mem : List UByte} {p : TcpPacketLittleEndian}
    (h : parsePacket mem = .ok p) : 5 ≤ declaredOffset mem ∧ 4 * declaredOffset mem ≤ mem.length := by
  obtain ⟨fixed, hfixed, h⟩ := bind_eq_ok_iff.mp h
  obtain ⟨b, hb, h⟩ := bind_eq_ok_iff.mp h
  obtain ⟨options, hoptions, -⟩ := bind_eq_ok_iff.mp h
  obtain ⟨-, -, -, hcut⟩ := slice_eq_ok_iff.mp hfixed
  obtain ⟨-, hge, hle, -⟩ := slice_eq_ok_iff.mp hoptions
  have hbyte : mem.getD 12 0 = b := by
    rw [← getD_of_readAt hb 0, hcut]
    exact (getD_take (by decide) mem 0).symm
  rw [declaredOffset, hbyte]
  omega

/-- A packet carrying TCP is made only after a header without options, from proto data that
reaches to the end of the options it declares. -/
theorem FullPacketView.newPacketByThis_tcp_requires {ip : Ipv4PacketView}
    {transport : TcpPacketView} {range : ℤ × ℤ} {proxy : QTunnelProxy} {payload : List UByte}
    {packet : FullPacketObject} (hdst : proxy.dstAddr.ip.length = 4)
    (h : (tcp ip transport range).newPacketByThis proxy payload = .ok packet) :
    declaredWords ip.header = 5 ∧ 20 ≤ ip.header.length ∧ proxy.protoData.ReadsAsTcp := by
  obtain ⟨options, hoptions, h⟩ := bind_eq_ok_iff.mp h
  obtain ⟨seq, -, h⟩ := bind_eq_ok_iff.mp h
  obtain ⟨ack, -, h⟩ := bind_eq_ok_iff.mp h
  obtain ⟨offset, hoffset, h⟩ := bind_eq_ok_iff.mp h
  obtain ⟨flags, -, h⟩ := bind_eq_ok_iff.mp h
  obtain ⟨window, -, h⟩ := bind_eq_ok_iff.mp h
  obtain ⟨urgent, hurgent, h⟩ := bind_eq_ok_iff.mp h
  obtain ⟨object, hobject, h⟩ := bind_eq_ok_iff.mp h
  obtain ⟨parent, hparent, h⟩ := bind_eq_ok_iff.mp h
  obtain ⟨net, hnet, -⟩ := bind_eq_ok_iff.mp h
  rw [Ipv4PacketView.parsePacket_eq hparent] at hnet
  obtain ⟨hwords, hmem⟩ := Ipv4PacketView.generateObject_requires hdst hnet
  have hfixed : 16 < proxy.protoData.data.length := read16_lt hurgent
  rw [QTunnelTCPViewScheme.getOptions_eq] at hoptions
  cases Except.ok.inj hoptions
  have hbyte := getD_of_readAt hoffset 0
  obtain ⟨hge, hle⟩ := TcpPacketLittleEndian.parsePacket_requires hobject
  have hdeclared : declaredOffset (TcpPacketLittleEndian.generateObjectBytes proxy.sourcePort
      proxy.dstPort seq ack offset flags window urgent proxy.protoData.tcpOptionBytes) =
        proxy.protoData.tcpOffset := by
    rw [QTunnelProtoData.tcpOffset]
    change _ = (((QTunnelTCPViewScheme.ofBytes proxy.protoData.data).data.getD 12 0) &&& 0xF).toNat
    rw [hbyte]
    exact congrArg UInt8.toNat (offsetByte_parts offset flags.getNs).1
  have hlength : (TcpPacketLittleEndian.generateObjectBytes proxy.sourcePort
      proxy.dstPort seq ack offset flags window urgent proxy.protoData.tcpOptionBytes).length =
        20 + proxy.protoData.tcpOptionBytes.length := by
    simp only [TcpPacketLittleEndian.generateObjectBytes, List.length_append, bytes16_length,
      bytes32_length, List.length_cons, List.length_nil]
  rw [hdeclared] at hge hle
  rw [hlength] at hle
  exact ⟨hwords, hmem, ⟨hfixed, hge, by omega⟩⟩

/-- A packet carrying UDP is made only after a header without options, from proto data that
holds a length. -/
theorem FullPacketView.newPacketByThis_udp_requires {ip : Ipv4PacketView}
    {transport : UdpPacketView} {range : ℤ × ℤ} {proxy : QTunnelProxy} {payload : List UByte}
    {packet : FullPacketObject} (hdst : proxy.dstAddr.ip.length = 4)
    (h : (udp ip transport range).newPacketByThis proxy payload = .ok packet) :
    declaredWords ip.header = 5 ∧ 20 ≤ ip.header.length ∧ 4 ≤ proxy.protoData.data.length := by
  obtain ⟨length, hlength, h⟩ := bind_eq_ok_iff.mp h
  obtain ⟨parent, hparent, h⟩ := bind_eq_ok_iff.mp h
  obtain ⟨net, hnet, -⟩ := bind_eq_ok_iff.mp h
  rw [Ipv4PacketView.parsePacket_eq hparent] at hnet
  obtain ⟨hwords, hmem⟩ := Ipv4PacketView.generateObject_requires hdst hnet
  exact ⟨hwords, hmem, read16_lt hlength⟩

end Requirements

section Views

variable {net : List UByte} (hnet : IsIpv4Layout net) (hwords : declaredWords net = 5)
  (hversion : net.getD 0 0 >>> 4 = NetProtocol.IPv4.val)
include hnet hwords hversion

/-- Bytes that start with an IPv4 header without options are seen by their protocol. -/
theorem FullPacketView.preParse_plain {proto : TransportProtocol}
    (hprotocol : net.getD 9 0 = proto.val) (hproto : proto = .TCP ∨ proto = .UDP)
    (rest : List UByte) (size : ℕ) : preParse (net ++ rest) size =
      if proto = .TCP then ipv4Tcp (net ++ rest) size else ipv4Udp (net ++ rest) size := by
  have hlength : net.length = 20 := by rw [hnet.length_eq, hwords]
  rw [preParse, readAt_append_getD (by omega) 0, ok_bind, highNibble_and, if_pos hversion,
    hnet.parsePacket_plain hwords, ok_bind, Ipv4PacketView.getIpProtocol]
  dsimp only
  rw [readAt_append_getD (by omega) 0, ok_bind, hprotocol]
  change (if proto = .TCP then _ else if proto = .UDP then _ else _) = _
  split
  · rfl
  · next hnot => rw [if_pos (hproto.resolve_left hnot)]

end Views

/-- Printing a TCP packet walks the options of its header. -/
theorem FullPacketView.toPacketFriendlyView_tcp {mem : List UByte} (hmem : 20 ≤ mem.length)
    (g : TcpFields) (sum : UShort) (payload : List UByte) (range : ℤ × ℤ) :
    (tcp ⟨mem, 0⟩ ⟨g.header sum ++ payload, g.options.length⟩ range).toPacketFriendlyView =
      TcpOptionsView.toTcpOptionsFriendlyView (g.options ++ payload) g.options.length >>=
        fun _ => .ok () := by
  have hlength := g.header_length sum
  have hin : TcpPacketView.InMemory ⟨g.header sum ++ payload, g.options.length⟩ :=
    ⟨by dsimp only; omega, by dsimp only; rw [List.length_append]; omega⟩
  rw [toPacketFriendlyView, Ipv4PacketView.ipToFriendlyView_of_le hmem, ok_bind,
    hin.toTcpFriendlyView]
  rfl

/-- Printing a UDP packet reads its two headers. -/
theorem FullPacketView.toPacketFriendlyView_udp {mem header : List UByte}
    (hmem : 20 ≤ mem.length) (hheader : header.length = 8) (rest : List UByte) (range : ℤ × ℤ) :
    (udp ⟨mem, 0⟩ ⟨header ++ rest⟩ range).toPacketFriendlyView = .ok () := by
  have hudp : slice (header ++ rest) 0 8 = .ok header := slice_prefix _ _ _ (by rw [hheader]; rfl)
  rw [toPacketFriendlyView, Ipv4PacketView.ipToFriendlyView_of_le hmem, ok_bind,
    UdpPacketView.toUdpFriendlyView, hudp]
  rfl

section Injected

variable {calcChecksums : List UByte → List UByte} (hcalc : OnlyChecksums calcChecksums)
  (sizeofView : ℕ) {mem : List UByte} (hmem : 20 ≤ mem.length) (hwords : declaredWords mem = 5)
  (hversion : mem.getD 0 0 >>> 4 = NetProtocol.IPv4.val) {decoded : QTunnelData}
  (hvalid : decoded.checkValidity = true) (hsrc : decoded.sourceAddr.ip.length = 4)
  (hdst : decoded.dstAddr.ip.length = 4)
include hcalc hmem hwords hversion hvalid hsrc hdst

/-- What is injected after a TCP carrier, if its options can be printed. -/
theorem injectDecoded_tcp (hprotocol : mem.getD 9 0 = TransportProtocol.TCP.val)
    (hreads : decoded.protoData.ReadsAsTcp) (transport : TcpPacketView) (range : ℤ × ℤ) :
    ∃ net sum, net.length = 20 ∧ declaredWords net = 5 ∧
      net.getD 9 0 = TransportProtocol.TCP.val ∧
      injectDecoded calcChecksums sizeofView (.tcp ⟨mem, 0⟩ transport range) decoded =
        TcpOptionsView.toTcpOptionsFriendlyView (decoded.tcpFields.options ++ decoded.data)
          decoded.tcpFields.options.length >>= fun _ =>
          .ok (some ⟨net ++ (decoded.tcpFields.header sum ++ decoded.data), sizeofView⟩) := by
  have hnew := FullPacketView.newPacketByThis_tcp hmem hwords hsrc hdst hreads transport range
    decoded.data
  generalize newChecksum (carrierFields mem) decoded.toQTunnelProxy (decoded.tcpFields.header 0)
    decoded.data 16 = check at hnew
  generalize UInt16.ofNat (20 + (decoded.tcpFields.header 0).length + decoded.data.length) = total
    at hnew
  obtain ⟨hlayout, hfive, hfirst, hninth⟩ := carrierFields_stamped hwords total hsrc hdst
  generalize (carrierFields mem).stamped total decoded.sourceAddr.ip decoded.dstAddr.ip = net
    at hnew hlayout hfive hfirst hninth
  rw [← hfirst] at hversion
  rw [← hninth] at hprotocol
  have hlength : net.length = 20 := by rw [hlayout.length_eq, hfive]
  obtain ⟨word, sum, hcalculated⟩ := hcalc.apply (.inl rfl) check hlength hversion hfive hprotocol
    (decoded.tcpFields.header_split decoded.data)
  have hnet' := withChecksum_length hlength word
  have hwords' := (withChecksum_words hlength word).trans hfive
  have hprotocol' := (withChecksum_getD hlength word (by decide : 9 < 10)).trans hprotocol
  generalize withChecksum net word = net' at hcalculated hnet' hwords' hprotocol'
  refine ⟨net', sum, hnet', hwords', hprotocol', ?_⟩
  have hbytes : (FullPacketView.tcp ⟨mem, 0⟩ transport range).newPacketBytesByThis
      decoded.toQTunnelProxy.create decoded.data =
        .ok (net ++ decoded.tcpFields.header check ++ decoded.data) :=
    FullPacketView.newPacketBytesByThis_of_ok hnew
  have hoptions : ((decoded.tcpFields.header check).length : ℤ) - 20 =
      decoded.tcpFields.options.length := by
    rw [TcpFields.header_length]
    omega
  have hparse := FullPacketView.preParse_plain hlayout hfive hversion hprotocol (.inl rfl)
    (decoded.tcpFields.header check ++ decoded.data)
    (net ++ decoded.tcpFields.header check ++ decoded.data).length
  rw [← List.append_assoc, if_pos rfl,
    FullPacketView.ipv4Tcp_plain hlayout hfive (hreads.complete.layout check), hoptions] at hparse
  have hprint := FullPacketView.toPacketFriendlyView_tcp
    (show 20 ≤ (net ++ decoded.tcpFields.header check ++ decoded.data).length by
      rw [List.length_append, List.length_append]; omega)
    decoded.tcpFields check decoded.data (20 + (decoded.tcpFields.header check).length,
      (net ++ decoded.tcpFields.header check ++ decoded.data).length)
  have hprint' := FullPacketView.toPacketFriendlyView_tcp
    (show 20 ≤ (net' ++ (decoded.tcpFields.header sum ++ decoded.data)).length by
      rw [List.length_append]; omega)
    decoded.tcpFields sum decoded.data (20 + (decoded.tcpFields.header check).length,
      (net ++ decoded.tcpFields.header check ++ decoded.data).length)
  rw [injectDecoded_eq calcChecksums sizeofView hvalid hbytes hparse (slice_all _ _ rfl), hprint,
    hcalculated, FullPacketView.over_tcp, List.drop_left' hnet', hprint']
  generalize TcpOptionsView.toTcpOptionsFriendlyView (decoded.tcpFields.options ++ decoded.data)
    decoded.tcpFields.options.length = walk
  -- both printings walk the same options
  cases walk with
  | error fault => rfl
  | ok options => rfl

/-- What is injected after a UDP carrier. -/
theorem injectDecoded_udp (hprotocol : mem.getD 9 0 = TransportProtocol.UDP.val)
    (hreads : 4 ≤ decoded.protoData.data.length) (transport : UdpPacketView) (range : ℤ × ℤ) :
    ∃ net sum, net.length = 20 ∧ declaredWords net = 5 ∧
      net.getD 9 0 = TransportProtocol.UDP.val ∧
      injectDecoded calcChecksums sizeofView (.udp ⟨mem, 0⟩ transport range) decoded =
        .ok (some ⟨net ++ (decoded.udpFields.header 8 sum ++ decoded.data), sizeofView⟩) := by
  have hnew := FullPacketView.newPacketByThis_udp hmem hwords hsrc hdst hreads transport range
    decoded.data
  generalize newChecksum (carrierFields mem) decoded.toQTunnelProxy (decoded.udpFields.header 8 0)
    decoded.data 6 = check at hnew
  generalize UInt16.ofNat (28 + decoded.data.length) = total at hnew
  obtain ⟨hlayout, hfive, hfirst, hninth⟩ := carrierFields_stamped hwords total hsrc hdst
  generalize (carrierFields mem).stamped total decoded.sourceAddr.ip decoded.dstAddr.ip = net
    at hnew hlayout hfive hfirst hninth
  rw [← hfirst] at hversion
  rw [← hninth] at hprotocol
  have hlength : net.length = 20 := by rw [hlayout.length_eq, hfive]
  obtain ⟨word, sum, hcalculated⟩ := hcalc.apply (.inr rfl) check hlength hversion hfive hprotocol
    (decoded.udpFields.header_split 8 decoded.data)
  have hnet' := withChecksum_length hlength word
  have hwords' := (withChecksum_words hlength word).trans hfive
  have hprotocol' := (withChecksum_getD hlength word (by decide : 9 < 10)).trans hprotocol
  generalize withChecksum net word = net' at hcalculated hnet' hwords' hprotocol'
  refine ⟨net', sum, hnet', hwords', hprotocol', ?_⟩
  have hbytes : (FullPacketView.udp ⟨mem, 0⟩ transport range).newPacketBytesByThis
      decoded.toQTunnelProxy decoded.data =
        .ok (net ++ decoded.udpFields.header 8 check ++ decoded.data) :=
    FullPacketView.newPacketBytesByThis_of_ok hnew
  have hparse := FullPacketView.preParse_plain hlayout hfive hversion hprotocol (.inr rfl)
    (decoded.udpFields.header 8 check ++ decoded.data)
    (net ++ decoded.udpFields.header 8 check ++ decoded.data).length
  rw [if_neg (by decide), FullPacketView.ipv4Udp_plain hlayout hfive, ← List.append_assoc] at hparse
  have hprint := FullPacketView.toPacketFriendlyView_udp
    (show 20 ≤ (net ++ decoded.udpFields.header 8 check ++ decoded.data).length by
      rw [List.length_append, List.length_append]; omega)
    (decoded.udpFields.header_length 8 check) decoded.data
    (28, (net ++ decoded.udpFields.header 8 check ++ decoded.data).length)
  have hprint' := FullPacketView.toPacketFriendlyView_udp
    (show 20 ≤ (net' ++ (decoded.udpFields.header 8 sum ++ decoded.data)).length by
      rw [List.length_append]; omega)
    (decoded.udpFields.header_length 8 sum) decoded.data
    (28, (net ++ decoded.udpFields.header 8 check ++ decoded.data).length)
  rw [injectDecoded_eq calcChecksums sizeofView hvalid hbytes hparse (slice_all _ _ rfl), hprint,
    hcalculated, FullPacketView.over_udp, List.drop_left' hnet', hprint']
  rfl

end Injected

/-- The addresses of a decoded IPv4 packet have four bytes. -/
theorem QTunnelData.ofBytes_addrs {data : List UByte} {decoded : QTunnelData}
    (h : ofBytes data = .ok decoded) (hnet : decoded.netProtocol = .IPv4) :
    decoded.sourceAddr.ip.length = 4 ∧ decoded.dstAddr.ip.length = 4 := by
  obtain ⟨rest, body, size, protoBytes, hfrom⟩ := exists_decodedFrom h
  have haddrs := hfrom.addrs
  rw [readAddrsByProtocol, if_pos hnet] at haddrs
  obtain ⟨hsrc, -, hdst, -⟩ := readAddrs_eq_ok_iff.mp haddrs
  have hsource := slice_length hsrc
  have hdest := slice_length hdst
  omega

/-- A decoded packet has been made from some bytes. -/
theorem decodeData_ofBytes {layers : QVPNLayersSettings} {m m' : QVPNPacketManager}
    {record : List UByte} {decoded : QTunnelData}
    (h : decodeData layers m record = .ok (some decoded, m')) :
    ∃ data, QTunnelData.ofBytes data = .ok decoded := by
  obtain ⟨res, -, h⟩ := bind_eq_ok_iff.mp h
  obtain ⟨⟨packet, m''⟩, -, h⟩ := bind_eq_ok_iff.mp h
  cases packet with
  | none => cases Except.ok.inj h
  | some data =>
    obtain ⟨decoded', hdecoded, h⟩ := bind_eq_ok_iff.mp h
    cases Except.ok.inj h
    exact ⟨data, hdecoded⟩

/-- What the pre-parser has looked at when it makes views of a UDP packet. -/
theorem FullPacketView.preParse_udp {mem : List UByte} {size : ℕ} {ip : Ipv4PacketView}
    {transport : UdpPacketView} {range : ℤ × ℤ}
    (h : preParse mem size = .ok (.udp ip transport range)) :
    mem.getD 0 0 >>> 4 = NetProtocol.IPv4.val ∧ mem.getD 9 0 = TransportProtocol.UDP.val ∧
      ip = ⟨mem, (declaredWords mem : ℤ) - 5⟩ := by
  obtain ⟨hversion, ⟨-, htcp⟩ | ⟨hprotocol, hudp⟩⟩ := preParse_cases h (by simp)
  · obtain ⟨_, -, htcp⟩ := bind_eq_ok_iff.mp htcp
    obtain ⟨_, -, htcp⟩ := bind_eq_ok_iff.mp htcp
    cases htcp
  · obtain ⟨ip', hip, hudp⟩ := bind_eq_ok_iff.mp hudp
    cases Except.ok.inj hudp
    exact ⟨hversion, hprotocol, Ipv4PacketView.parsePacket_eq hip⟩

/-- What a packet carries behind an IPv4 header without options. -/
theorem keepsProtocol_net {decoded : QTunnelData} {net behind : List UByte}
    (hlength : net.length = 20) (hwords : declaredWords net = 5) (rest : List UByte) :
    KeepsProtocol decoded behind (net ++ rest) ↔ net.getD 9 0 = decoded.transportProtocol.val ∧
      ((decoded.transportProtocol = .TCP ∧ ∃ sum, rest = decoded.tcpFields.header sum ++ behind) ∨
        (decoded.transportProtocol = .UDP ∧ ∃ length sum, length.toNat = 8 + decoded.data.length ∧
          rest = decoded.udpFields.header length sum ++ behind)) := by
  have hprotocol : (net ++ rest).getD 9 0 = net.getD 9 0 := List.getD_append _ _ _ _ (by omega)
  have hrest : (net ++ rest).drop (4 * declaredWords (net ++ rest)) = rest := by
    have hfive : declaredWords (net ++ rest) = 5 := by
      rw [declaredWords, List.getD_append _ _ _ _ (by omega)]
      exact hwords
    rw [hfive, List.drop_left' hlength]
  constructor
  · rintro ⟨hcarries, htransport⟩
    rw [hprotocol] at hcarries
    rw [hrest] at htransport
    exact ⟨hcarries, htransport⟩
  · rintro ⟨hcarries, htransport⟩
    rw [← hprotocol] at hcarries
    rw [← hrest] at htransport
    exact ⟨hcarries, htransport⟩

/-- A packet that is cut in its IP header carries nothing. -/
theorem KeepsProtocol.length_ge {decoded : QTunnelData} {net behind rest : List UByte} {n : ℕ}
    (h : KeepsProtocol decoded behind ((net ++ rest).take n)) (hlength : net.length = 20)
    (hwords : declaredWords net = 5) : 20 ≤ n := by
  by_contra hcut
  have hne : ((net ++ rest).take n).drop (4 * declaredWords ((net ++ rest).take n)) ≠ [] := by
    obtain ⟨-, sum, htransport⟩ | ⟨-, _, sum, -, htransport⟩ := h.transport
    · rw [htransport]
      exact List.append_ne_nil_of_left_ne_nil (List.cons_ne_nil _ _) _
    · rw [htransport]
      exact List.append_ne_nil_of_left_ne_nil (List.cons_ne_nil _ _) _
  rw [List.take_append_of_le_length (by omega)] at hne
  apply hne
  by_cases hnone : n = 0
  · rw [hnone, List.take_zero, List.drop_nil]
  · rw [declaredWords, getD_take (by omega), ← declaredWords, hwords]
    exact List.drop_eq_nil_of_le (by rw [List.length_take]; omega)

/-- What the front of a packet carries. -/
theorem keepsProtocol_take {decoded : QTunnelData} {net behind : List UByte}
    (hlength : net.length = 20) (hwords : declaredWords net = 5) (rest : List UByte) {n : ℕ} :
    KeepsProtocol decoded behind ((net ++ rest).take n) ↔
      20 ≤ n ∧ KeepsProtocol decoded behind (net ++ rest.take (n - 20)) := by
  have hfront (hn : 20 ≤ n) : (net ++ rest).take n = net ++ rest.take (n - 20) := by
    rw [List.take_append, hlength, List.take_of_length_le (by omega)]
  constructor
  · intro h
    have hn := h.length_ge hlength hwords
    exact ⟨hn, hfront hn ▸ h⟩
  · rintro ⟨hn, h⟩
    exact (hfront hn).symm ▸ h

/-- A front of a header and a payload that begins with a header as long. -/
theorem take_header_eq_iff {header header' payload behind : List UByte} {n : ℕ}
    (hlength : header.length = header'.length) :
    (header ++ payload).take n = header' ++ behind ↔
      header.length ≤ n ∧ header = header' ∧ behind = payload.take (n - header.length) := by
  constructor
  · intro h
    have hsize := congrArg List.length h
    rw [List.length_take, List.length_append, List.length_append] at hsize
    have hn : header.length ≤ n := by omega
    rw [List.take_append, List.take_of_length_le hn] at h
    obtain ⟨hheader, hbehind⟩ := List.append_inj h hlength
    exact ⟨hn, hheader, hbehind.symm⟩
  · rintro ⟨hn, rfl, rfl⟩
    rw [List.take_append, List.take_of_length_le hn]

section Injected

variable {calcChecksums : List UByte → List UByte} (hcalc : OnlyChecksums calcChecksums)
  (sizeofView : ℕ) {mem : List UByte} {size : ℕ} {decoded : QTunnelData} {behind : List UByte}
  (hvalid : decoded.checkValidity = true) (hsrc : decoded.sourceAddr.ip.length = 4)
  (hdst : decoded.dstAddr.ip.length = 4)
include hcalc hvalid hsrc hdst

/-- A TCP carrier keeps the protocol of the decoded packets that suit it, if the headers are injected
and nothing behind the packet is. -/
theorem injectDecoded_tcp_keeps_iff {ip : Ipv4PacketView} {transport : TcpPacketView}
    {range : ℤ × ℤ} (hcarrier : FullPacketView.preParse mem size = .ok (.tcp ip transport range)) :
    (∃ send, injectDecoded calcChecksums sizeofView (.tcp ip transport range) decoded =
        .ok (some send) ∧ send.Keeps decoded behind) ↔
      decoded.Suits mem (.tcp ip transport range) ∧
        decoded.headersSize (.tcp ip transport range) ≤ sizeofView ∧
        sizeofView ≤ decoded.headersSize (.tcp ip transport range) + decoded.data.length ∧
        behind = decoded.data.take (sizeofView - decoded.headersSize (.tcp ip transport range)) := by
  obtain ⟨hversion, hprotocol, hip, b, hb⟩ := FullPacketView.preParse_tcp hcarrier
  rw [QTunnelData.headersSize]
  constructor
  · rintro ⟨send, hsend, bytes, hbytes, hkeeps⟩
    obtain ⟨object, hobject⟩ := newPacketByThis_of_injectDecoded _ _ hsend
    obtain ⟨hwords, hmem, hreads⟩ := FullPacketView.newPacketByThis_tcp_requires hdst hobject
    rw [hip] at hwords hmem
    obtain ⟨net, sum, hlength, hfive, hninth, hinject⟩ := injectDecoded_tcp hcalc sizeofView hmem
      hwords hversion hvalid hsrc hdst hprotocol hreads transport range
    rw [hwords] at hip
    rw [hip] at hsend
    obtain ⟨options, hwalk, hsent⟩ := bind_eq_ok_iff.mp (hinject.symm.trans hsend)
    cases Except.ok.inj hsent
    obtain ⟨hsize, rfl⟩ := WinDivertSend.injected_eq_ok_iff.mp hbytes
    obtain ⟨hfront, hkeeps⟩ := (keepsProtocol_take hlength hfive _).mp hkeeps
    dsimp only at hsize hfront hkeeps
    obtain ⟨hsame, htransport⟩ := (keepsProtocol_net hlength hfive _).mp hkeeps
    have hproto : decoded.transportProtocol = .TCP :=
      congrArg TransportProtocol.mk (hsame.symm.trans hninth)
    refine ⟨⟨hwords, hproto, hreads, (decoded.optionsReadable_iff hreads).mp ⟨options, hwalk⟩⟩, ?_⟩
    rcases htransport with ⟨-, sum', hcut⟩ | ⟨hudp, -⟩
    · obtain ⟨hheader, -, hbehind⟩ := (take_header_eq_iff (by
        rw [TcpFields.header_length, TcpFields.header_length])).mp hcut
      rw [TcpFields.header_length] at hheader hbehind
      rw [List.length_append, List.length_append, TcpFields.header_length, hlength] at hsize
      refine ⟨by omega, by omega, ?_⟩
      rw [hbehind]
      congr 1
      omega
    · rw [hproto] at hudp
      cases hudp
  · rintro ⟨⟨hwords, hproto, hreads, hreadable⟩, hheaders, hsize, rfl⟩
    obtain ⟨options, hwalk⟩ := (decoded.optionsReadable_iff hreads).mpr hreadable
    rw [hwords] at hip
    rw [hip] at hb ⊢
    have hmem := lt_of_readAt hb
    rw [List.length_drop] at hmem
    change 12 < mem.length - 20 at hmem
    obtain ⟨net, sum, hlength, hfive, hninth, hinject⟩ := injectDecoded_tcp hcalc sizeofView
      (by omega) hwords hversion hvalid hsrc hdst hprotocol hreads transport range
    rw [hwalk] at hinject
    have hheader := decoded.tcpFields.header_length sum
    refine ⟨_, hinject, _, WinDivertSend.injected_eq_ok_iff.mpr ⟨?_, rfl⟩,
      (keepsProtocol_take hlength hfive _).mpr ⟨by dsimp only; omega,
        (keepsProtocol_net hlength hfive _).mpr ⟨?_, .inl ⟨hproto, sum, ?_⟩⟩⟩⟩
    · rw [List.length_append, List.length_append]
      dsimp only
      omega
    · rw [hninth, hproto]
    · refine (take_header_eq_iff rfl).mpr ⟨by dsimp only; omega, rfl, ?_⟩
      congr 1
      dsimp only
      omega

/-- A UDP carrier keeps the protocol of the decoded packets that suit it, if its headers are injected
and nothing else is. -/
theorem injectDecoded_udp_keeps_iff {ip : Ipv4PacketView} {transport : UdpPacketView}
    {range : ℤ × ℤ} (hcarrier : FullPacketView.preParse mem size = .ok (.udp ip transport range))
    (hprint : (FullPacketView.udp ip transport range).toPacketFriendlyView = .ok ()) :
    (∃ send, injectDecoded calcChecksums sizeofView (.udp ip transport range) decoded =
        .ok (some send) ∧ send.Keeps decoded behind) ↔
      decoded.Suits mem (.udp ip transport range) ∧
        decoded.headersSize (.udp ip transport range) ≤ sizeofView ∧
        sizeofView ≤ decoded.headersSize (.udp ip transport range) + decoded.data.length ∧
        behind = decoded.data.take (sizeofView - decoded.headersSize (.udp ip transport range)) := by
  obtain ⟨hversion, hprotocol, hip⟩ := FullPacketView.preParse_udp hcarrier
  rw [QTunnelData.headersSize]
  constructor
  · rintro ⟨send, hsend, bytes, hbytes, hkeeps⟩
    obtain ⟨object, hobject⟩ := newPacketByThis_of_injectDecoded _ _ hsend
    obtain ⟨hwords, hmem, hreads⟩ := FullPacketView.newPacketByThis_udp_requires hdst hobject
    rw [hip] at hwords hmem
    obtain ⟨net, sum, hlength, hfive, hninth, hinject⟩ := injectDecoded_udp hcalc sizeofView hmem
      hwords hversion hvalid hsrc hdst hprotocol hreads transport range
    rw [hwords] at hip
    rw [hip] at hsend
    cases Except.ok.inj (hinject.symm.trans hsend)
    obtain ⟨hsize, rfl⟩ := WinDivertSend.injected_eq_ok_iff.mp hbytes
    obtain ⟨hfront, hkeeps⟩ := (keepsProtocol_take hlength hfive _).mp hkeeps
    dsimp only at hsize hfront hkeeps
    obtain ⟨hsame, htransport⟩ := (keepsProtocol_net hlength hfive _).mp hkeeps
    have hproto : decoded.transportProtocol = .UDP :=
      congrArg TransportProtocol.mk (hsame.symm.trans hninth)
    rcases htransport with ⟨htcp, -⟩ | ⟨-, length, sum', hdatagram, hcut⟩
    · rw [hproto] at htcp
      cases htcp
    · obtain ⟨hheader, hfields, hbehind⟩ := (take_header_eq_iff (by
        rw [UdpFields.header_length, UdpFields.header_length])).mp hcut
      rw [UdpFields.header_length] at hheader hbehind
      rw [List.length_append, List.length_append, UdpFields.header_length, hlength] at hsize
      have height : length = 8 := by
        have hword := congrArg (fun xs : List UByte => join (xs.getD 4 0) (xs.getD 5 0)) hfields
        change join (hi 8) (lo 8) = join (hi length) (lo length) at hword
        rw [join_hi_lo, join_hi_lo] at hword
        exact hword.symm
      rw [height] at hdatagram
      change 8 = _ at hdatagram
      refine ⟨⟨hwords, hproto, hreads, List.eq_nil_of_length_eq_zero (by omega)⟩, by omega,
        by omega, ?_⟩
      rw [hbehind]
      congr 1
  · rintro ⟨⟨hwords, hproto, hreads, hempty⟩, hheaders, hsize, rfl⟩
    rw [hwords] at hip
    rw [hip] at hprint ⊢
    obtain ⟨_, hfixed, -⟩ := bind_eq_ok_iff.mp hprint
    obtain ⟨_, hfixed, -⟩ := bind_eq_ok_iff.mp hfixed
    obtain ⟨-, -, hmem, -⟩ := slice_eq_ok_iff.mp hfixed
    dsimp only at hmem
    obtain ⟨net, sum, hlength, hfive, hninth, hinject⟩ := injectDecoded_udp hcalc sizeofView
      (by omega) hwords hversion hvalid hsrc hdst hprotocol hreads transport range
    have hheader := decoded.udpFields.header_length 8 sum
    refine ⟨_, hinject, _, WinDivertSend.injected_eq_ok_iff.mpr ⟨?_, rfl⟩,
      (keepsProtocol_take hlength hfive _).mpr ⟨by dsimp only; omega,
        (keepsProtocol_net hlength hfive _).mpr ⟨?_, .inr ⟨hproto, 8, sum, ?_, ?_⟩⟩⟩⟩
    · rw [List.length_append, List.length_append]
      dsimp only
      omega
    · rw [hninth, hproto]
    · rw [hempty]
      rfl
    · refine (take_header_eq_iff rfl).mpr ⟨by dsimp only; omega, rfl, ?_⟩
      congr 1

end Injected

/-- What is injected for a captured packet in which a valid packet arrives carries the decoded
transport protocol, under a header made from the decoded proto data, exactly when it suits the packet
and the size of a view object lies between the headers and the end of the assembled packet. -/
theorem incomingCapture_keeps_iff {calcChecksums : List UByte → List UByte}
    (hcalc : OnlyChecksums calcChecksums) (sizeofView : ℕ) {layers : QVPNLayersSettings}
    {m m' : QVPNPacketManager} {packet data : List UByte} {size : ℕ} {package : FullPacketView}
    {decoded : QTunnelData} (hcarrier : FullPacketView.preParse packet size = .ok package)
    (hdata : package.getPayload packet = .ok data) (hsome : data.length ≠ 0)
    (hprint : package.toPacketFriendlyView = .ok ())
    (hdecode : decodeData layers m data = .ok (some decoded, m'))
    (hvalid : decoded.checkValidity = true) (behind : List UByte) :
    (∃ send, incomingCapture calcChecksums sizeofView layers m packet size = .ok (some send, m') ∧
        send.Keeps decoded behind) ↔
      decoded.Suits packet package ∧ decoded.headersSize package ≤ sizeofView ∧
        sizeofView ≤ decoded.headersSize package + decoded.data.length ∧
        behind = decoded.data.take (sizeofView - decoded.headersSize package) := by
  obtain ⟨bytes, hbytes⟩ := decodeData_ofBytes hdecode
  have hnet : decoded.netProtocol = .IPv4 := by
    have h := of_decide_eq_true hvalid
    exact h.1
  obtain ⟨hsrc, hdst⟩ := QTunnelData.ofBytes_addrs hbytes hnet
  have hinject : (∃ send, incomingCapture calcChecksums sizeofView layers m packet size =
        .ok (some send, m') ∧ send.Keeps decoded behind) ↔
      ∃ send, injectDecoded calcChecksums sizeofView package decoded = .ok (some send) ∧
        send.Keeps decoded behind := by
    rw [incomingCapture_eq calcChecksums sizeofView hcarrier hdata hsome hprint hdecode]
    cases injectDecoded calcChecksums sizeofView package decoded with
    | error fault => simp
    | ok send => simp [pure, Except.pure]
  rw [hinject]
  cases package with
  | tcp ip transport range =>
    exact injectDecoded_tcp_keeps_iff hcalc sizeofView hvalid hsrc hdst hcarrier
  | udp ip transport range =>
    exact injectDecoded_udp_keeps_iff hcalc sizeofView hvalid hsrc hdst hcarrier hprint
  | dummy =>
    cases Except.ok.inj hdata
    exact absurd rfl hsome

/-- The whole of a valid packet is injected with the decoded transport protocol exactly when it suits
the packet it arrives in, and is as long as a view object. The headers of that protocol are injected
exactly when it suits the packet and the view object ends neither in them nor behind the packet. -/
theorem incomingCapture_keepsProtocol_iff {calcChecksums : List UByte → List UByte}
    (hcalc : OnlyChecksums calcChecksums) (sizeofView : ℕ) {layers : QVPNLayersSettings}
    {m m' : QVPNPacketManager} {packet data : List UByte} {size : ℕ} {package : FullPacketView}
    {decoded : QTunnelData} (hcarrier : FullPacketView.preParse packet size = .ok package)
    (hdata : package.getPayload packet = .ok data) (hsome : data.length ≠ 0)
    (hprint : package.toPacketFriendlyView = .ok ())
    (hdecode : decodeData layers m data = .ok (some decoded, m'))
    (hvalid : decoded.checkValidity = true) :
    ((∃ send, incomingCapture calcChecksums sizeofView layers m packet size = .ok (some send, m') ∧
        send.Keeps decoded decoded.data) ↔
      decoded.Suits packet package ∧
        sizeofView = decoded.headersSize package + decoded.data.length) ∧
    ((∃ send behind, incomingCapture calcChecksums sizeofView layers m packet size =
        .ok (some send, m') ∧ send.Keeps decoded behind) ↔
      decoded.Suits packet package ∧ decoded.headersSize package ≤ sizeofView ∧
        sizeofView ≤ decoded.headersSize package + decoded.data.length) := by
  have hiff := incomingCapture_keeps_iff hcalc sizeofView hcarrier hdata hsome hprint hdecode hvalid
  constructor
  · rw [hiff]
    constructor
    · rintro ⟨hsuits, hheaders, hsize, hwhole⟩
      have hlength := (List.take_eq_self_iff _).mp hwhole.symm
      exact ⟨hsuits, by omega⟩
    · rintro ⟨hsuits, rfl⟩
      refine ⟨hsuits, by omega, by omega, (List.take_of_length_le ?_).symm⟩
      omega
  · constructor
    · rintro ⟨send, behind, hsend⟩
      obtain ⟨hsuits, hheaders, hsize, -⟩ := (hiff behind).mp ⟨send, hsend⟩
      exact ⟨hsuits, hheaders, hsize⟩
    · rintro ⟨hsuits, hheaders, hsize⟩
      obtain ⟨send, hsend⟩ := (hiff _).mpr ⟨hsuits, hheaders, hsize, rfl⟩
      exact ⟨send, _, hsend⟩

/-- The headers of a TCP packet in front of the record of a UDP datagram with three bytes. -/
def datagramCarrier : List UByte :=
  [0x45, 0, 0, 71, 0, 9, 0x40, 0, 64, 6, 0, 0, 10, 0, 0, 1, 10, 0, 0, 2,
    1, 187, 195, 80, 0, 0, 0, 1, 0, 0, 0, 2, 0x50, 0x18, 1, 0, 0, 0, 0, 0,
    23, 3, 3, 0, 26, 0, 0, 0, 0, 21, 4, 17, 93, 184, 216, 34, 0, 53, 192, 168, 0, 2, 4, 210,
    0, 2, 0, 11, 5, 6, 7]

/-- A UDP datagram that arrives in a TCP packet is read with the scheme of TCP, which its proto
data is too short for. -/
theorem datagramCarrier_not_kept :
    ∃ package data decoded m',
      FullPacketView.preParse datagramCarrier 71 = .ok package ∧
      package.getPayload datagramCarrier = .ok data ∧ data.length ≠ 0 ∧
      package.toPacketFriendlyView = .ok () ∧
      decodeData QVPNLayersSettings.defaultLayers (QVPNPacketManager.initial .increasing) data =
        .ok (some decoded, m') ∧
      decoded.checkValidity = true ∧ decoded.transportProtocol = .UDP ∧
      ∀ calcChecksums sizeofView, ¬∃ send behind, incomingCapture calcChecksums sizeofView
          QVPNLayersSettings.defaultLayers (QVPNPacketManager.initial .increasing) datagramCarrier
          71 = .ok (some send, m') ∧ send.Keeps decoded behind := by
  refine ⟨_, _, _, _, rfl, rfl, by decide, rfl, rfl, rfl, rfl, ?_⟩
  rintro calcChecksums sizeofView ⟨send, behind, hsend, -⟩
  have hfault : incomingCapture calcChecksums sizeofView QVPNLayersSettings.defaultLayers
      (QVPNPacketManager.initial .increasing) datagramCarrier 71 = .error .outOfBounds := rfl
  cases hfault.symm.trans hsend

/-- The headers of a TCP packet in front of the record of a TCP packet with an option. -/
def optionCarrier : List UByte :=
  [0x45, 0, 0, 88, 0, 9, 0x40, 0, 64, 6, 0, 0, 10, 0, 0, 1, 10, 0, 0, 2,
    1, 187, 195, 80, 0, 0, 0, 1, 0, 0, 0, 2, 0x50, 0x18, 1, 0, 0, 0, 0, 0,
    23, 3, 3, 0, 43, 0, 0, 0, 0, 38, 4, 6, 93, 184, 216, 34, 0, 80, 192, 168, 0, 2, 4, 210,
    0, 19, 0, 0, 0, 1, 0, 0, 0, 2, 0, 24, 6, 1, 0, 0, 0, 2, 4, 5, 180, 5, 6, 7]

/-- A TCP packet that arrives in a TCP packet; its checksums are there before the helper runs. It has
47 bytes: of 88 bytes that are injected, 41 would be read behind it. -/
theorem incomingCapture_keepsProtocol_iff_option :
    ∃ m', (∃ send, incomingCapture id 47 QVPNLayersSettings.defaultLayers
        (QVPNPacketManager.initial .increasing) optionCarrier 88 = .ok (some send, m') ∧
      send.Keeps ⟨optionProxy, [5, 6, 7]⟩ [5, 6, 7]) ∧
    ¬∃ send behind, incomingCapture id 88 QVPNLayersSettings.defaultLayers
        (QVPNPacketManager.initial .increasing) optionCarrier 88 = .ok (some send, m') ∧
      send.Keeps ⟨optionProxy, [5, 6, 7]⟩ behind := by
  have hcalc : OnlyChecksums id := ⟨fun _ => rfl, fun _ _ _ _ _ _ => rfl⟩
  obtain ⟨m', hdecode⟩ : ∃ m', decodeData QVPNLayersSettings.defaultLayers
      (QVPNPacketManager.initial .increasing) (optionCarrier.drop 40) =
        .ok (some ⟨optionProxy, [5, 6, 7]⟩, m') := ⟨_, rfl⟩
  let package : FullPacketView := .tcp ⟨optionCarrier, 0⟩ ⟨optionCarrier.drop 20, 0⟩ (40, 88)
  have hcarrier : FullPacketView.preParse optionCarrier 88 = .ok package := rfl
  have hdata : package.getPayload optionCarrier = .ok (optionCarrier.drop 40) := rfl
  have hreads : QTunnelProtoData.ReadsAsTcp optionProxy.protoData :=
    ⟨by decide, by decide, by decide⟩
  have hsuits : QTunnelData.Suits ⟨optionProxy, [5, 6, 7]⟩ optionCarrier package :=
    ⟨rfl, rfl, hreads, (QTunnelData.optionsReadable_iff hreads).mp ⟨_, rfl⟩⟩
  have hwhole := (incomingCapture_keepsProtocol_iff hcalc 47 hcarrier hdata (by decide) rfl hdecode
    rfl).1.mpr ⟨hsuits, rfl⟩
  have hbehind := (incomingCapture_keepsProtocol_iff hcalc 88 hcarrier hdata (by decide) rfl hdecode
    rfl).2
  refine ⟨m', hwhole, fun h => ?_⟩
  exact absurd (hbehind.mp h).2.2 (by decide)

end QVPN
