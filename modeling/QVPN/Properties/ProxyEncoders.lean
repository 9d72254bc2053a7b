import QVPN.Structures.FullPacket
import QVPN.Structures.ProxyEncoders

/-!
# Encoded proxy data

Proxy data are encoded twice, with and without a builder header. The encoder without it leaves out
the length of the proto data, so that it neither agrees with the other one nor with the decoder. The
builder header announces a size to which every address contributes what it says about itself.
-/

namespace QVPN

open BigEndian Memory TLS13ApplicationData

/-- The encoding with a builder header is five bytes and the encoding without. -/
def EncodersAgree {Addr : Type} [IsAddr Addr] (pb : PacketBuilderData)
    (proxy : QTunnelProxyOf Addr) (payload : List UByte) : Prop :=
  ∃ header plain, header.length = 5 ∧ generateObjectBytesProxyOf proxy payload = .ok plain ∧
    generateObjectBytesPbProxyOf pb proxy payload = .ok (header ++ plain)

/-- The encoding without a builder header is decoded into what was encoded. -/
def DecodesBack {Addr : Type} [IsAddr Addr] (proxy : QTunnelProxyOf Addr) (payload : List UByte) :
    Prop :=
  ∃ plain, generateObjectBytesProxyOf proxy payload = .ok plain ∧
    QTunnelDataOf.ofBytes plain = .ok ⟨proxy, payload⟩

namespace QTunnelProxyOf

variable {Addr : Type} [IsAddr Addr]

theorem headerBytes_length (p : QTunnelProxyOf Addr) :
    p.headerBytes.length =
      6 + (IsAddr.toBytes p.sourceAddr).length + (IsAddr.toBytes p.dstAddr).length := by
  simp only [headerBytes, List.length_append, List.length_cons, List.length_nil, bytes16_length]
  omega

theorem proxyBytes_length (p : QTunnelProxyOf Addr) :
    p.proxyBytes.length = p.headerBytes.length + p.protoData.data.length := List.length_append

end QTunnelProxyOf

/-- The bytes behind the length are two less than the proto data. -/
theorem QTunnelProtoData.getProtoData_length {p : QTunnelProtoData} {body : List UByte}
    (h : p.getProtoData = .ok body) : body.length + 2 = p.data.length := by
  obtain ⟨length, -, h⟩ := bind_eq_ok_iff.mp h
  have hlength := slice_length h
  omega

/-- The encoder without a builder header emits two bytes less than the proxy data have. -/
theorem generateObjectBytesProxyOf_length {Addr : Type} [IsAddr Addr] {proxy : QTunnelProxyOf Addr}
    {payload plain : List UByte} (h : generateObjectBytesProxyOf proxy payload = .ok plain) :
    plain.length + 2 = proxy.proxyBytes.length + payload.length := by
  obtain ⟨body, hbody, h⟩ := bind_eq_ok_iff.mp h
  have hlength := QTunnelProtoData.getProtoData_length hbody
  cases Except.ok.inj h
  rw [QTunnelProxyOf.proxyBytes_length, List.length_append, List.length_append]
  omega

/-- What is encoded with a builder header. -/
theorem generateObjectBytesPbProxyOf_eq_ok {Addr : Type} [IsAddr Addr] {pb : PacketBuilderData}
    {proxy : QTunnelProxyOf Addr} {payload bytes : List UByte}
    (h : generateObjectBytesPbProxyOf pb proxy payload = .ok bytes) :
    ∃ size, proxy.getProxyDataSize = .ok size ∧
      bytes = PacketBuilderData.bytes ⟨pb.packetId, pb.offset, pb.originalSize + size⟩ ++
        (proxy.proxyBytes ++ payload) := by
  obtain ⟨size, hsize, h⟩ := bind_eq_ok_iff.mp h
  exact ⟨size, hsize, (Except.ok.inj h).symm⟩

/-- A decoder reads two addresses of equally many bytes. -/
theorem QTunnelDataOf.readAddrs_length {t : AddrType} {data : List UByte} {size : ℕ}
    {src dst : t.Carrier} {srcPort dstPort : UShort}
    (h : readAddrs data size = .ok (src, srcPort, dst, dstPort)) :
    (IsAddr.toBytes src).length = (IsAddr.toBytes dst).length := by
  obtain ⟨xs, hxs, h⟩ := bind_eq_ok_iff.mp h
  obtain ⟨a, ha, h⟩ := bind_eq_ok_iff.mp h
  obtain ⟨_, -, h⟩ := bind_eq_ok_iff.mp h
  obtain ⟨ys, hys, h⟩ := bind_eq_ok_iff.mp h
  obtain ⟨b, hb, h⟩ := bind_eq_ok_iff.mp h
  obtain ⟨_, -, h⟩ := bind_eq_ok_iff.mp h
  cases Except.ok.inj h
  have hsource := slice_length hxs
  have hdst := slice_length hys
  exact AddrType.toBytes_length_eq ha hb (by omega)

/-- A decoder takes as many bytes for the source address as for the destination address, counts them
as the source address announces them, and takes the proto data with their length. -/
theorem QTunnelDataOf.ofBytes_length {t : AddrType} {bytes : List UByte}
    {packet : QTunnelDataOf t.Carrier} (h : ofBytes bytes = .ok packet) :
    (IsAddr.toBytes packet.sourceAddr).length = (IsAddr.toBytes packet.dstAddr).length ∧
      bytes.length = 6 + IsAddr.getAddrSize packet.sourceAddr * 2 + packet.protoData.data.length +
        packet.data.length := by
  obtain ⟨net, -, h⟩ := bind_eq_ok_iff.mp h
  obtain ⟨transport, -, h⟩ := bind_eq_ok_iff.mp h
  obtain ⟨rest, hrest, h⟩ := bind_eq_ok_iff.mp h
  obtain ⟨⟨src, srcPort, dst, dstPort⟩, haddrs, h⟩ := bind_eq_ok_iff.mp h
  obtain ⟨body, hbody, h⟩ := bind_eq_ok_iff.mp h
  obtain ⟨size, -, h⟩ := bind_eq_ok_iff.mp h
  obtain ⟨protoBytes, hproto, h⟩ := bind_eq_ok_iff.mp h
  obtain ⟨payload, hpayload, h⟩ := bind_eq_ok_iff.mp h
  cases Except.ok.inj h
  constructor
  · rw [readAddrsByProtocol] at haddrs
    split at haddrs
    · exact readAddrs_length haddrs
    · split at haddrs
      · exact readAddrs_length haddrs
      · cases Except.ok.inj haddrs
        rfl
  · have hfront := eraseFront_length hrest
    have hmiddle := eraseFront_length hbody
    have hback := eraseFront_length hpayload
    have hslice := slice_length hproto
    dsimp only
    rw [QTunnelProtoData.ofLength, List.length_append, bytes16_length]
    omega

/-- The encoding without a builder header is two bytes shorter than what follows the builder header
of the other one. -/
theorem not_encodersAgree {Addr : Type} [IsAddr Addr] (pb : PacketBuilderData)
    (proxy : QTunnelProxyOf Addr) (payload : List UByte) : ¬EncodersAgree pb proxy payload := by
  intro ⟨header, plain, hheader, hplain, hbytes⟩
  have hlength := generateObjectBytesProxyOf_length hplain
  obtain ⟨size, -, hsame⟩ := generateObjectBytesPbProxyOf_eq_ok hbytes
  have hsizes := congrArg List.length hsame
  simp only [List.length_append, PacketBuilderData.bytes_length, hheader] at hsizes
  omega

/-- Whatever the type of the addresses, the encoding without a builder header is neither what follows
the builder header of the other one, nor is it decoded into what was encoded. -/
theorem proxyEncoders_disagree (t : AddrType) (pb : PacketBuilderData)
    (proxy : QTunnelProxyOf t.Carrier) (payload : List UByte) :
    ¬EncodersAgree pb proxy payload ∧ ¬DecodesBack proxy payload := by
  refine ⟨not_encodersAgree pb proxy payload, ?_⟩
  intro ⟨plain, hplain, hdecoded⟩
  have hlength := generateObjectBytesProxyOf_length hplain
  rw [proxy.proxyBytes_length, proxy.headerBytes_length] at hlength
  obtain ⟨hsame, hcount⟩ := QTunnelDataOf.ofBytes_length hdecoded
  dsimp only at hsame hcount
  rw [AddrType.getAddrSize_eq] at hcount
  split at hcount
  · next hipv6 =>
    subst hipv6
    rw [IPv6Address.toBytes_length] at hsame hlength
    omega
  · omega

/-- The size that is announced for proxy data is the number of their bytes, and the original size
in a builder header counts them and the original size of the payload. -/
structure AnnouncesSize {Addr : Type} [IsAddr Addr] (proxy : QTunnelProxyOf Addr) : Prop where
  size : ∃ size, proxy.getProxyDataSize = .ok size ∧ size.toNat = proxy.proxyBytes.length
  completes : ∀ (pb : PacketBuilderData) (payload : List UByte),
    ∃ bytes announced, generateObjectBytesPbProxyOf pb proxy payload = .ok bytes ∧
      read16 bytes 3 = .ok announced ∧
      (pb.originalSize.toNat + (bytes.length - payload.length - 5) < 65536 →
        announced.toNat = pb.originalSize.toNat + (bytes.length - payload.length - 5))

/-- Proto data that the scheme of a TCP or UDP header consists of. -/
inductive QTunnelProtoData.OfTransport : QTunnelProtoData → Prop where
  | tcp {mem bytes : List UByte} {view : TcpPacketView} (hview : TcpPacketView.parsePacket mem = .ok view)
      (hbytes : QTunnelTCPViewScheme.generateObjectBytes view = .ok bytes) : OfTransport ⟨bytes⟩
  | udp {bytes : List UByte} {view : UdpPacketView}
      (hbytes : QTunnelUDPViewScheme.generateObjectBytes view = .ok bytes) : OfTransport ⟨bytes⟩

/-- Such proto data announce their size, which is small. -/
theorem QTunnelProtoData.OfTransport.wellFormed {p : QTunnelProtoData} (h : p.OfTransport) :
    p.WellFormed ∧ p.data.length ≤ 57 := by
  cases h with
  | tcp hview hbytes => exact QTunnelTCPViewScheme.wellFormed hview hbytes
  | udp hbytes => exact QTunnelUDPViewScheme.wellFormed hbytes

/-- What a received packet of TCP or UDP yields is proto data of its transport header. -/
theorem FullPacketView.collectProtoData_ofTransport {mem : List UByte} {size : ℕ}
    {packet : FullPacketView} {p : QTunnelProtoData} (hparse : preParse mem size = .ok packet)
    (hcollect : packet.collectProtoData = .ok p) (hpacket : packet ≠ .dummy) : p.OfTransport := by
  cases packet with
  | dummy => exact absurd rfl hpacket
  | udp ip transport payload =>
    obtain ⟨bytes, hbytes, hp⟩ := bind_eq_ok_iff.mp hcollect
    cases Except.ok.inj hp
    exact .udp hbytes
  | tcp ip transport payload =>
    obtain ⟨view, hview, hcollect⟩ := bind_eq_ok_iff.mp hcollect
    obtain ⟨bytes, hbytes, hp⟩ := bind_eq_ok_iff.mp hcollect
    cases Except.ok.inj hp
    exact .tcp hview hbytes

/-- The announced size of proxy data with addresses of at most sixteen bytes. -/
theorem QTunnelProxyOf.exists_getProxyDataSize {t : AddrType} (proxy : QTunnelProxyOf t.Carrier)
    (hproto : proxy.protoData.OfTransport)
    (hsource : (IsAddr.toBytes proxy.sourceAddr).length ≤ 16)
    (hdst : (IsAddr.toBytes proxy.dstAddr).length ≤ 16) :
    ∃ size, proxy.getProxyDataSize = .ok size ∧
      size.toNat = 6 + IsAddr.getAddrSize proxy.sourceAddr + IsAddr.getAddrSize proxy.dstAddr +
        proxy.protoData.data.length := by
  have hannounced (a : t.Carrier) (ha : (IsAddr.toBytes a).length ≤ 16) :
      IsAddr.getAddrSize a ≤ 16 := by
    rw [AddrType.getAddrSize_eq]
    split
    · decide
    · exact ha
  obtain ⟨⟨length, body, hp, hlength⟩, hsmall⟩ := hproto.wellFormed
  have hdata : proxy.protoData.data.length = length.toNat + 2 := by
    rw [hp, QTunnelProtoData.ofLength, List.length_append, bytes16_length, hlength, Nat.add_comm]
  have hs := hannounced _ hsource
  have hd := hannounced _ hdst
  refine ⟨_, by rw [getProxyDataSize, hp, QTunnelProtoData.getLength_ofLength]; rfl, ?_⟩
  rw [ofNat_toNat_of_le (by omega)]
  omega

/-- A builder header announces what the sizes of its parts add up to. -/
theorem QTunnelProxyOf.announcesSize {Addr : Type} [IsAddr Addr] {proxy : QTunnelProxyOf Addr}
    {size : UShort} (hsize : proxy.getProxyDataSize = .ok size)
    (hexact : size.toNat = proxy.proxyBytes.length) : AnnouncesSize proxy := by
  refine ⟨⟨size, hsize, hexact⟩, fun pb payload => ?_⟩
  let header := PacketBuilderData.bytes ⟨pb.packetId, pb.offset, pb.originalSize + size⟩
  have hbytes : generateObjectBytesPbProxyOf pb proxy payload =
      .ok (header ++ (proxy.proxyBytes ++ payload)) := by
    rw [generateObjectBytesPbProxyOf, hsize]
    rfl
  have hannounced : read16 (header ++ (proxy.proxyBytes ++ payload)) 3 =
      .ok (pb.originalSize + size) :=
    read16_split (pb.packetId :: bytes16 pb.offset) (proxy.proxyBytes ++ payload) rfl rfl
  have hemitted : (header ++ (proxy.proxyBytes ++ payload)).length - payload.length - 5 =
      proxy.proxyBytes.length := by
    simp only [header, List.length_append, PacketBuilderData.bytes_length]
    omega
  refine ⟨_, _, hbytes, hannounced, fun hfits => ?_⟩
  rw [hemitted] at hfits ⊢
  rw [UInt16.toNat_add, hexact, Nat.mod_eq_of_lt hfits]

/-- For proto data of a TCP or UDP header, and addresses of four or sixteen bytes, proxy data
announce their size exactly when their addresses are not of the class for IPv6. -/
theorem announcesSize_iff (t : AddrType) (proxy : QTunnelProxyOf t.Carrier)
    (hproto : proxy.protoData.OfTransport)
    (hsource : (IsAddr.toBytes proxy.sourceAddr).length = 4 ∨
      (IsAddr.toBytes proxy.sourceAddr).length = 16)
    (hdst : (IsAddr.toBytes proxy.dstAddr).length = 4 ∨
      (IsAddr.toBytes proxy.dstAddr).length = 16) :
    AnnouncesSize proxy ↔ t ≠ .ipv6Address := by
  obtain ⟨size, hsize, hcount⟩ :=
    proxy.exists_getProxyDataSize hproto (by omega) (by omega)
  have hbytes := proxy.proxyBytes_length
  rw [proxy.headerBytes_length] at hbytes
  constructor
  · intro h hipv6
    subst hipv6
    obtain ⟨size', hsize', hexact⟩ := h.size
    cases Except.ok.inj (hsize.symm.trans hsize')
    rw [AddrType.getAddrSize_eq, AddrType.getAddrSize_eq, if_pos rfl, if_pos rfl] at hcount
    rw [IPv6Address.toBytes_length, IPv6Address.toBytes_length] at hbytes
    omega
  · intro hother
    rw [AddrType.getAddrSize_eq, AddrType.getAddrSize_eq, if_neg hother, if_neg hother] at hcount
    exact QTunnelProxyOf.announcesSize hsize (by omega)

/-- Proxy data of an empty UDP packet from an address to itself. -/
def emptyUdpProxy (t : AddrType) (net : NetProtocol) (addr : t.Carrier) :
    QTunnelProxyOf t.Carrier where
  netProtocol := net
  transportProtocol := .UDP
  sourceAddr := addr
  sourcePort := 0
  dstAddr := addr
  dstPort := 0
  protoData := ⟨[0, 2, 0, 8]⟩

/-- The two encodings of a packet without payload, and what the decoder makes of the one without a
builder header. -/
theorem emptyUdpProxy_encoders :
    generateObjectBytesPbProxyOf ⟨0, 0, 0⟩ (emptyUdpProxy .ipv4Address .IPv4 ⟨[127, 0, 0, 1], rfl⟩)
        [] = .ok ([0, 0, 0, 0, 18] ++
        [4, 17, 127, 0, 0, 1, 0, 0, 127, 0, 0, 1, 0, 0] ++ [0, 2, 0, 8]) ∧
    generateObjectBytesProxyOf (emptyUdpProxy .ipv4Address .IPv4 ⟨[127, 0, 0, 1], rfl⟩) [] =
      .ok ([4, 17, 127, 0, 0, 1, 0, 0, 127, 0, 0, 1, 0, 0] ++ [0, 8]) ∧
    ¬EncodersAgree ⟨0, 0, 0⟩ (emptyUdpProxy .ipv4Address .IPv4 ⟨[127, 0, 0, 1], rfl⟩) [] :=
  ⟨by decide, by decide, not_encodersAgree _ _ _⟩

/-- Proxy data with two addresses of the class for IPv6 announce twenty bytes less than they have. -/
theorem emptyUdpProxy_not_announcesSize :
    (emptyUdpProxy .ipv6Address .IPv6 AddrArray.default).getProxyDataSize = .ok 22 ∧
      (emptyUdpProxy .ipv6Address .IPv6 AddrArray.default).proxyBytes.length = 42 ∧
      ¬AnnouncesSize (emptyUdpProxy .ipv6Address .IPv6 AddrArray.default) := by
  refine ⟨rfl, rfl, fun h => ?_⟩
  obtain ⟨size, hsize, hexact⟩ := h.size
  cases Except.ok.inj hsize
  cases hexact

/-- With addresses of any size they announce their size. -/
theorem announcesSize_emptyUdp : AnnouncesSize (emptyUdpProxy .netAddr .IPv6 NetAddr.default) :=
  (announcesSize_iff .netAddr (emptyUdpProxy .netAddr .IPv6 NetAddr.default)
    (@QTunnelProtoData.OfTransport.udp _ ⟨[0, 0, 0, 0, 0, 8]⟩ (by decide)) (.inr rfl) (.inr rfl)).mpr (by decide)

end QVPN
