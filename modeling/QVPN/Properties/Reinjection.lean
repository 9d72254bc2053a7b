import QVPN.Properties.PacketBoundaries
import QVPN.Structures.NewPacket

/-!
# Packets assembled for injection

The new packet is computed once as the concatenation of an IPv4 header, a transport header and
the payload, each written by its fields. Every later step of the assembly replaces one field,
so what it leaves alone need not be looked at, and the two checksums are those of the fields
that are final when they are made.
-/

namespace QVPN

open BigEndian Checksum Memory

/-- The fields of an IPv4 header that a new packet takes over from the one it is made after. -/
structure Ipv4Fields where
  first : UByte
  tos : UByte
  id : UShort
  fragment : UShort
  ttl : UByte
  protocol : UByte

namespace Ipv4Fields

/-- A header without options. -/
def header (f : Ipv4Fields) (total checksum : UShort) (src dst : List UByte) : List UByte :=
  [f.first, f.tos] ++ bytes16 total ++ bytes16 f.id ++ bytes16 f.fragment ++ [f.ttl, f.protocol] ++
    bytes16 checksum ++ src ++ dst

def ofHeader (net : List UByte) : Ipv4Fields where
  first := net.getD 0 0
  tos := net.getD 1 0
  id := join (net.getD 4 0) (net.getD 5 0)
  fragment := join (net.getD 6 0) (net.getD 7 0)
  ttl := net.getD 8 0
  protocol := net.getD 9 0

def checksum (f : Ipv4Fields) (total : UShort) (src dst : List UByte) : UShort :=
  complement (sumBytes (f.header total 0 src dst) 0)

/-- The header with its own checksum. -/
def stamped (f : Ipv4Fields) (total : UShort) (src dst : List UByte) : List UByte :=
  f.header total (f.checksum total src dst) src dst

/-- Twenty bytes are a header of their fields. -/
theorem header_ofHeader {net : List UByte} (h : net.length = 20) :
    ∃ total checksum src dst, src.length = 4 ∧ dst.length = 4 ∧
      net = (ofHeader net).header total checksum src dst := by
  match net, h with
  | [b0, b1, b2, b3, b4, b5, b6, b7, b8, b9, b10, b11, b12, b13, b14, b15, b16, b17, b18, b19], _ =>
    refine ⟨join b2 b3, join b10 b11, [b12, b13, b14, b15], [b16, b17, b18, b19], rfl, rfl, ?_⟩
    simp [header, ofHeader, bytes16]

section Header

variable (f : Ipv4Fields) (total sum : UShort) {src dst : List UByte}

theorem header_length (hsrc : src.length = 4) (hdst : dst.length = 4) : (f.header total sum src dst).length = 20 := by
  simp only [header, List.length_append, List.length_cons, List.length_nil, bytes16_length, hsrc,
    hdst]

theorem setIpTotalLength_header (src dst : List UByte) (total' : UShort) (size : ℤ)
    (rest : List UByte) :
    Ipv4PacketView.setIpTotalLength ⟨f.header total sum src dst ++ rest, size⟩ total' =
      .ok ⟨f.header total' sum src dst ++ rest, size⟩ := by
  have hwrite := write16_append [f.first, f.tos] total' total (bytes16 f.id ++ bytes16 f.fragment ++
    [f.ttl, f.protocol] ++ bytes16 sum ++ src ++ dst ++ rest) rfl
  simp only [← List.append_assoc] at hwrite
  rw [Ipv4PacketView.setIpTotalLength]
  simp only [header]
  rw [show 2 = [f.first, f.tos].length from rfl, hwrite]
  rfl

theorem setSrcAddr_header (hsrc : src.length = 4) (addr : NetAddr) (haddr : addr.ip.length = 4) (size : ℤ) :
    Ipv4PacketView.setSrcAddr ⟨f.header total sum src dst, size⟩ addr =
      .ok ⟨f.header total sum addr.ip dst, size⟩ := by
  rw [Ipv4PacketView.setSrcAddr]
  simp only [header]
  rw [overwrite_append _ _ _ _ (by simp) (haddr.trans hsrc.symm)]
  rfl

theorem setDstAddr_header (hsrc : src.length = 4) (hdst : dst.length = 4) (addr : NetAddr)
    (haddr : addr.ip.length = 4) (size : ℤ) :
    Ipv4PacketView.setDstAddr ⟨f.header total sum src dst, size⟩ addr =
      .ok ⟨f.header total sum src addr.ip, size⟩ := by
  have hcopy := overwrite_append ([f.first, f.tos] ++ bytes16 total ++ bytes16 f.id ++
    bytes16 f.fragment ++ [f.ttl, f.protocol] ++ bytes16 sum ++ src) dst addr.ip []
    (show 16 = _ by simp [hsrc]) (haddr.trans hdst.symm)
  rw [List.append_nil, List.append_nil] at hcopy
  rw [Ipv4PacketView.setDstAddr]
  simp only [header]
  rw [hcopy]
  rfl

/-- The checksum of a header without options is that of its fields. -/
theorem recalculateIpChecksum_header (hsrc : src.length = 4) (hdst : dst.length = 4)
    (rest : List UByte) :
    Ipv4PacketView.recalculateIpChecksum ⟨f.header total sum src dst ++ rest, 0⟩ =
      .ok ⟨f.stamped total src dst ++ rest, 0⟩ := by
  have hwrite (v w : UShort) : write16 (f.header total v src dst ++ rest) 10 w =
      .ok (f.header total w src dst ++ rest) := by
    have h := write16_append ([f.first, f.tos] ++ bytes16 total ++ bytes16 f.id ++
      bytes16 f.fragment ++ [f.ttl, f.protocol]) w v (src ++ dst ++ rest) (show 10 = _ by simp)
    simp only [← List.append_assoc] at h
    exact h
  have hlength := f.header_length total 0 hsrc hdst
  have hwords := sumWords_front (f.header total 0 src dst) (by rw [hlength]) rest 0
  rw [hlength] at hwords
  rw [Ipv4PacketView.recalculateIpChecksum, hwrite, ok_bind, hwords, ok_bind]
  change (write16 (f.header total 0 src dst ++ rest) 10 (f.checksum total src dst) >>= fun _ => _) = _
  rw [hwrite]
  rfl

/-- A stamped header verifies. -/
theorem stamped_verifies (hsrc : src.length = 4) (hdst : dst.length = 4) :
    onesSum (f.stamped total src dst) 0 = 65535 := by
  have hlength := f.header_length total 0 hsrc hdst
  have hsplit (v : UShort) : f.header total v src dst = ([f.first, f.tos] ++ bytes16 total ++
      bytes16 f.id ++ bytes16 f.fragment ++ [f.ttl, f.protocol]) ++ bytes16 v ++ (src ++ dst) := by
    simp only [header, List.append_assoc]
  rw [hsplit] at hlength
  rw [stamped, checksum, hsplit, hsplit]
  exact onesSum_complement (by simp) (by omega)

end Header

/-- The words a header declares are in its first byte. -/
theorem declaredWords_header (f : Ipv4Fields) (total sum : UShort) (src dst : List UByte) :
    declaredWords (f.header total sum src dst) = (f.first &&& 0xF).toNat := rfl

theorem isIpv4Layout (f : Ipv4Fields) (hwords : (f.first &&& 0xF).toNat = 5) (total sum : UShort)
    {src dst : List UByte} (hsrc : src.length = 4) (hdst : dst.length = 4) :
    IsIpv4Layout (f.header total sum src dst) where
  words_ge := hwords.ge
  length_eq := by rw [f.header_length total sum hsrc hdst, declaredWords_header, hwords]

end Ipv4Fields

/-- The header for decoded addresses, made after a header without options. -/
theorem Ipv4PacketView.generateObject_eq {net : List UByte} (hlayout : IsIpv4Layout net)
    (hwords : declaredWords net = 5) (behind : List UByte) {src dst : NetAddr}
    (hsrc : src.ip.length = 4) (hdst : dst.ip.length = 4) (total : UShort) :
    generateObject ⟨net ++ behind, 0⟩ src dst total =
      .ok ⟨(Ipv4Fields.ofHeader net).stamped total src.ip dst.ip⟩ := by
  have hlength : net.length = 20 := by rw [hlayout.length_eq, hwords]
  have hbytes : toNetBytes ⟨net ++ behind, 0⟩ = .ok net :=
    slice_prefix net behind _ (by rw [hlength]; rfl)
  have hview := hlayout.parsePacket_plain hwords []
  rw [List.append_nil] at hview
  have hobject := ((Ipv4Fields.ofHeader net).isIpv4Layout hwords total
    ((Ipv4Fields.ofHeader net).checksum total src.ip dst.ip) hsrc hdst).parsePacket_object []
  rw [List.append_nil] at hobject
  rw [generateObject, generateObjectBytes, hbytes, ok_bind, hview, ok_bind]
  obtain ⟨total', sum, src', dst', hsrc', hdst', hfields⟩ := Ipv4Fields.header_ofHeader hlength
  generalize Ipv4Fields.ofHeader net = f at hfields hobject ⊢
  have hstamp := f.recalculateIpChecksum_header total sum hsrc hdst []
  rw [List.append_nil, List.append_nil] at hstamp
  have htotal := f.setIpTotalLength_header total' sum src.ip dst.ip total 0 []
  rw [List.append_nil, List.append_nil] at htotal
  rw [hfields, f.setSrcAddr_header total' sum hsrc' src hsrc, ok_bind,
    f.setDstAddr_header total' sum hsrc hdst' dst hdst, ok_bind, htotal, ok_bind, hstamp, ok_bind,
    pure_bind]
  exact hobject

/-- The fields of a TCP header. -/
structure TcpFields where
  srcPort : UShort
  dstPort : UShort
  seq : UInt
  ack : UInt
  offset : UByte
  flags : UByte
  window : UShort
  urgent : UShort
  options : List UByte

namespace TcpFields

def header (g : TcpFields) (checksum : UShort) : List UByte :=
  bytes16 g.srcPort ++ bytes16 g.dstPort ++ bytes32 g.seq ++ bytes32 g.ack ++
    [g.offset, g.flags] ++ bytes16 g.window ++ bytes16 checksum ++ bytes16 g.urgent ++ g.options

/-- The options are as many as the data offset declares. -/
structure Complete (g : TcpFields) : Prop where
  offset_ge : 5 ≤ (g.offset >>> 4).toNat
  options_length : g.options.length = 4 * ((g.offset >>> 4).toNat - 5)

theorem header_length (g : TcpFields) (sum : UShort) :
    (g.header sum).length = 20 + g.options.length := by
  simp only [header, List.length_append, bytes16_length, bytes32_length, List.length_cons,
    List.length_nil]

theorem Complete.layout {g : TcpFields} (h : g.Complete) (sum : UShort) :
    IsTcpLayout (g.header sum) where
  offset_ge := h.offset_ge
  length_eq := by
    have hge := h.offset_ge
    have hoptions := h.options_length
    change _ = 4 * (g.offset >>> 4).toNat
    rw [header_length]
    omega

/-- Another checksum makes no other difference. -/
theorem header_checksum (g : TcpFields) (sum sum' : UShort) :
    (g.header sum).take 16 ++ bytes16 sum' ++ (g.header sum).drop 18 = g.header sum' := rfl

/-- A data offset that says as much already is not changed by or-ing the words in. -/
theorem offset_or_words (b : UByte) :
    b ||| ((UInt16.ofNat (4 * (b >>> 4).toNat) / 4) <<< 4).toUInt8 = b := by
  revert b
  exact forall_byte (by decide +kernel)

/-- The length of a complete header is in its data offset already. -/
theorem Complete.setTransportLength {g : TcpFields} (h : g.Complete) (sum : UShort)
    (rest : List UByte) (size : ℤ) :
    TcpPacketView.setTransportLength ⟨g.header sum ++ rest, size⟩
      (UInt16.ofInt (20 + (((g.header sum).length : ℤ) - 20))) = .ok ⟨g.header sum ++ rest, size⟩ := by
  have hlength := (h.layout sum).length_eq
  have hwords : UInt16.ofInt (20 + (((g.header sum).length : ℤ) - 20)) =
      UInt16.ofNat (4 * (g.offset >>> 4).toNat) := by
    change _ = 4 * (g.offset >>> 4).toNat at hlength
    exact ofInt_eq_ofNat (by omega)
  have hread : readAt (g.header sum ++ rest) 12 = .ok g.offset := rfl
  have hwrite : writeAt (g.header sum ++ rest) 12 g.offset = .ok (g.header sum ++ rest) := by
    rw [writeAt, if_pos (by rw [List.length_append, header_length]; omega)]
    rfl
  rw [TcpPacketView.setTransportLength, hread, ok_bind, hwords, offset_or_words, hwrite]
  rfl

end TcpFields

/-- The fields of a UDP header. -/
structure UdpFields where
  srcPort : UShort
  dstPort : UShort

namespace UdpFields

def header (g : UdpFields) (length checksum : UShort) : List UByte :=
  bytes16 g.srcPort ++ bytes16 g.dstPort ++ bytes16 length ++ bytes16 checksum

theorem header_checksum (g : UdpFields) (length sum sum' : UShort) :
    (g.header length sum).take 6 ++ bytes16 sum' ++ (g.header length sum).drop 8 =
      g.header length sum' := rfl

end UdpFields

section Assembled

variable (f : Ipv4Fields) (hwords : (f.first &&& 0xF).toNat = 5) (total sum : UShort)
  {src dst : List UByte} (hsrc : src.length = 4) (hdst : dst.length = 4)
include hsrc hdst

/-- The pseudo header of a packet without IP options. -/
theorem pseudoHeader_header (rest : List UByte) :
    FullPacketObject.pseudoHeader ⟨f.header total sum src dst ++ rest, 0⟩ =
      .ok (TransportIpv4PseudoHeader.data ⟨src⟩ ⟨dst⟩ ⟨f.protocol⟩
        (total - (f.first &&& 0xF).toUInt16 * 4)) := by
  have htotal : read16 (f.header total sum src dst ++ rest) 2 = .ok total := by
    have h := read16_append [f.first, f.tos] total (bytes16 f.id ++ bytes16 f.fragment ++
      [f.ttl, f.protocol] ++ bytes16 sum ++ src ++ dst ++ rest)
    simp only [← List.append_assoc] at h
    exact h
  have hsource : slice (f.header total sum src dst ++ rest) 12 16 = .ok src := by
    have h := slice_append ([f.first, f.tos] ++ bytes16 total ++ bytes16 f.id ++
      bytes16 f.fragment ++ [f.ttl, f.protocol] ++ bytes16 sum) src (dst ++ rest) 12 16 (by simp)
      (by simp [hsrc])
    simp only [← List.append_assoc] at h
    exact h
  have hdest : slice (f.header total sum src dst ++ rest) 16 20 = .ok dst :=
    slice_append ([f.first, f.tos] ++ bytes16 total ++ bytes16 f.id ++
      bytes16 f.fragment ++ [f.ttl, f.protocol] ++ bytes16 sum ++ src) dst rest 16 20
      (by simp [hsrc]) (by simp [hsrc, hdst])
  rw [FullPacketObject.pseudoHeader, Ipv4PacketView.getIpTotalLength, htotal, ok_bind,
    Ipv4PacketView.getSrcAddr, hsource, Ipv4PacketView.getDstAddr, hdest]
  rfl

include hwords

/-- The pseudo header of a stamped packet counts what follows its twenty bytes. -/
theorem pseudoHeader_stamped (rest : List UByte) :
    FullPacketObject.pseudoHeader ⟨f.stamped total src dst ++ rest, 0⟩ =
      .ok (TransportIpv4PseudoHeader.data ⟨src⟩ ⟨dst⟩ ⟨f.protocol⟩ (total - 20)) := by
  have hfive : f.first &&& 0xF = 5 := UInt8.toNat_inj.mp hwords
  rw [Ipv4Fields.stamped, pseudoHeader_header f total _ hsrc hdst, hfive]
  rfl

/-- Recalculating the lengths of a packet carrying TCP only stores its size. -/
theorem recalculateLengths_tcp {g : TcpFields} (hg : g.Complete) (check : UShort)
    (payload : List UByte) :
    (FullPacketObject.tcp (f.header total sum src dst ++ g.header check ++ payload)).recalculateLengths =
      .ok (.tcp (f.header (UInt16.ofNat (20 + (g.header check).length + payload.length)) sum src dst ++
        g.header check ++ payload)) := by
  have hnet := f.isIpv4Layout hwords total sum hsrc hdst
  have hlayout := hg.layout check
  have hlength := f.header_length total sum hsrc hdst
  have hview := hnet.parsePacket_plain hwords (g.header check ++ payload)
  have hdrop (t : UShort) : (f.header t sum src dst ++ (g.header check ++ payload)).drop 20 =
      g.header check ++ payload := List.drop_left' (f.header_length t sum hsrc hdst)
  have hdata : UInt16.ofInt (20 + 0 + (20 + (((g.header check).length : ℤ) - 20)) +
      (((f.header total sum src dst ++ (g.header check ++ payload)).length : ℤ) -
        ((20 : ℕ) + ((g.header check).length : ℕ)))) =
      UInt16.ofNat (20 + (g.header check).length + payload.length) := by
    apply ofInt_eq_ofNat
    rw [List.length_append, hlength, List.length_append]
    omega
  rw [List.append_assoc, List.append_assoc, FullPacketObject.recalculateLengths]
  dsimp only
  rw [hview, ok_bind]
  change (TcpPacketView.parsePacket ((f.header total sum src dst ++ (g.header check ++ payload)).drop
    20) >>= fun transport => _) = _
  rw [hdrop, hlayout.parsePacket_view, ok_bind, TcpPacketView.getSize, hlayout.size_toNat]
  change (Ipv4PacketView.setIpTotalLength _ (UInt16.ofInt (20 + 0 + _ + (_ - ((20 : ℕ) + _)))) >>=
    fun ip => _) = _
  rw [hdata, f.setIpTotalLength_header, ok_bind]
  change (TcpPacketView.setTransportLength ⟨(f.header _ sum src dst ++
    (g.header check ++ payload)).drop 20, _⟩ _ >>= fun transport => _) = _
  rw [hdrop, hg.setTransportLength, ok_bind]
  change Except.ok (FullPacketObject.tcp ((f.header _ sum src dst ++ (g.header check ++ payload)).take
    20 ++ (g.header check ++ payload))) = _
  rw [List.take_left' (f.header_length _ sum hsrc hdst)]

/-- Recalculating the checksums of a packet carrying TCP stores those of its fields. -/
theorem recalculateChecksums_tcp {g : TcpFields} (hg : g.Complete) (check : UShort)
    (payload : List UByte) :
    (FullPacketObject.tcp (f.header total sum src dst ++ g.header check ++
      payload)).recalculateChecksums =
      .ok (.tcp (f.stamped total src dst ++ g.header (complement (segmentSum
        (TransportIpv4PseudoHeader.data ⟨src⟩ ⟨dst⟩ ⟨f.protocol⟩ (total - 20)) (g.header check)
          payload 16)) ++ payload)) := by
  have hnet := f.isIpv4Layout hwords total sum hsrc hdst
  have hlayout := hg.layout check
  have hstamped : (f.stamped total src dst).length = 20 := f.header_length total _ hsrc hdst
  have hge := hlayout.offset_ge
  have hlength := hlayout.length_eq
  have hview := hnet.parsePacket_plain hwords (g.header check ++ payload)
  have hdrop : (f.stamped total src dst ++ (g.header check ++ payload)).drop 20 =
      g.header check ++ payload := List.drop_left' hstamped
  have hpayload : slice (f.stamped total src dst ++ (g.header check ++ payload))
      ((20 : ℕ) + ((g.header check).length : ℕ))
      (f.stamped total src dst ++ (g.header check ++ payload)).length = .ok payload := by
    rw [← List.append_assoc]
    exact slice_suffix _ _ _ _ (by rw [List.length_append, hstamped]; rfl)
      (by rw [List.length_append]; rfl)
  have hpseudo := pseudoHeader_stamped f hwords total hsrc hdst (g.header check ++ payload)
  have htwelve : (TransportIpv4PseudoHeader.data ⟨src⟩ ⟨dst⟩ ⟨f.protocol⟩ (total - 20)).length =
      12 := pseudoHeader_length hsrc hdst _ _
  rw [List.append_assoc, List.append_assoc, FullPacketObject.recalculateChecksums,
    hview, ok_bind, f.recalculateIpChecksum_header total sum hsrc hdst, ok_bind]
  change (TcpPacketView.parsePacket ((f.stamped total src dst ++ (g.header check ++ payload)).drop
    20) >>= fun transport => _) = _
  rw [hdrop, hlayout.parsePacket_view, ok_bind, TcpPacketView.getSize, hlayout.size_toNat]
  change (slice _ ((20 : ℕ) + _) _ >>= fun payload => _) = _
  rw [hpayload, ok_bind, hpseudo, ok_bind]
  rw [TcpPacketView.recalculateTransportChecksum_eq htwelve rfl (by omega) (by omega) payload,
    ok_bind, TcpFields.header_checksum]
  change Except.ok (FullPacketObject.tcp (List.take 20 _ ++ _)) = _
  rw [List.take_left' hstamped]

/-- Headers and payload of a packet carrying TCP put one behind the other. -/
theorem ofTcp_header {g : TcpFields} (hg : g.Complete) (payload : List UByte) :
    FullPacketObject.ofTcp (f.header total sum src dst) (g.header 0) payload =
      .ok (.tcp (f.header total sum src dst ++ g.header 0 ++ payload)) := by
  have hnet := f.isIpv4Layout hwords total sum hsrc hdst
  have hview := hnet.parsePacket_plain hwords []
  have htransport := (hg.layout 0).parsePacket_view []
  rw [List.append_nil] at hview htransport
  rw [FullPacketObject.ofTcp, hview, ok_bind, htransport, ok_bind]
  change (FullPacketView.ipv4Tcp _ _ >>= fun _ => _) = _
  rw [FullPacketView.ipv4Tcp_plain hnet hwords (hg.layout 0)]
  rfl

/-- Putting the parts of a packet carrying TCP together, with lengths and checksums. -/
theorem assemble_tcp {g : TcpFields} (hg : g.Complete) (payload : List UByte) :
    (do
      let packet ← FullPacketObject.ofTcp (f.header total sum src dst) (g.header 0) payload
      let packet ← packet.recalculateLengths
      packet.recalculateChecksums) =
      .ok (.tcp (f.stamped (UInt16.ofNat (20 + (g.header 0).length + payload.length)) src dst ++
        g.header (complement (segmentSum (TransportIpv4PseudoHeader.data ⟨src⟩ ⟨dst⟩ ⟨f.protocol⟩
          (UInt16.ofNat (20 + (g.header 0).length + payload.length) - 20)) (g.header 0) payload 16)) ++
        payload)) := by
  rw [ofTcp_header f hwords total sum hsrc hdst hg, ok_bind,
    recalculateLengths_tcp f hwords total sum hsrc hdst hg, ok_bind,
    recalculateChecksums_tcp f hwords _ sum hsrc hdst hg]

end Assembled

/-- The option bytes that a scheme reads from proto data: what a 16-bit length leaves behind the
fixed fields. -/
def QTunnelProtoData.tcpOptionBytes (p : QTunnelProtoData) : List UByte :=
  (p.data.take (UInt16.ofNat p.data.length).toNat).drop 17

/-- The data offset a scheme hands over is the lower half of its byte. -/
def QTunnelProtoData.tcpOffset (p : QTunnelProtoData) : ℕ := (p.data.getD 12 0 &&& 0xF).toNat

/-- Proto data from which a TCP header can be made. -/
structure QTunnelProtoData.ReadsAsTcp (p : QTunnelProtoData) : Prop where
  fixed : 17 ≤ p.data.length
  offset_ge : 5 ≤ p.tcpOffset
  options_le : 4 * (p.tcpOffset - 5) ≤ p.tcpOptionBytes.length

/-- The fields of the header made from proto data. -/
def QTunnelProxy.tcpFields (p : QTunnelProxy) : TcpFields where
  srcPort := p.sourcePort
  dstPort := p.dstPort
  seq := join32 (p.protoData.data.getD 2 0) (p.protoData.data.getD 3 0) (p.protoData.data.getD 4 0)
    (p.protoData.data.getD 5 0)
  ack := join32 (p.protoData.data.getD 6 0) (p.protoData.data.getD 7 0) (p.protoData.data.getD 8 0)
    (p.protoData.data.getD 9 0)
  offset := p.protoData.data.getD 12 0 <<< 4 ||| (p.protoData.data.getD 10 0 &&& 0x1)
  flags := p.protoData.data.getD 11 0
  window := join (p.protoData.data.getD 13 0) (p.protoData.data.getD 14 0)
  urgent := join (p.protoData.data.getD 15 0) (p.protoData.data.getD 16 0)
  options := p.protoData.tcpOptionBytes.take (4 * (p.protoData.tcpOffset - 5))

/-- The scheme's options are always readable. -/
theorem QTunnelTCPViewScheme.getOptions_eq (p : QTunnelProtoData) :
    (ofBytes p.data).getOptions = .ok p.tcpOptionBytes := by
  have hle : (UInt16.ofNat p.data.length).toNat ≤ p.data.length := by
    rw [UInt16.toNat_ofNat']
    exact Nat.mod_le _ _
  rw [getOptions, ofBytes, QTunnelProtoData.tcpOptionBytes]
  dsimp only
  generalize (UInt16.ofNat p.data.length).toNat = n at hle ⊢
  rw [slice_eq_ok_iff]
  split
  · refine ⟨by omega, by omega, by omega, ?_⟩
    rw [List.drop_take]
    congr 1
    omega
  · refine ⟨by omega, by omega, by omega, ?_⟩
    rw [List.drop_eq_nil_of_le (by rw [List.length_take]; omega)]
    simp

/-- The byte that holds the data offset and NS gives both of them back. -/
theorem offsetByte_parts (b n : UByte) :
    (b <<< 4 ||| (n &&& 0x1)) >>> 4 = b &&& 0xF ∧
      (b <<< 4 ||| (n &&& 0x1)) &&& 0x1 = n &&& 0x1 := by
  rcases lowBit_cases n with hns | hns
  · rw [hns]
    revert b
    exact forall_byte (by decide +kernel)
  · rw [hns]
    revert b
    exact forall_byte (by decide +kernel)

/-- The two flag bytes of a scheme as the generator splits them. -/
theorem schemeFlags (n f : UByte) :
    TcpFlagsObject.getNs ⟨join n f⟩ = n &&& 0x1 ∧ TcpFlagsObject.getWithoutNs ⟨join n f⟩ = f := by
  have hmask : f &&& UInt16.toUInt8 0xFF = f := by
    revert f
    exact forall_byte (by decide +kernel)
  have hhigh := hi_join n f
  have hlow := lo_join n f
  rw [hi] at hhigh
  rw [lo] at hlow
  rw [TcpFlagsObject.getNs, TcpFlagsObject.getWithoutNs, UInt16.toUInt8_and, UInt16.toUInt8_and,
    hhigh, hlow, hmask]
  exact ⟨rfl, rfl⟩

theorem QTunnelProxy.tcpFields_words (p : QTunnelProxy) :
    (p.tcpFields.offset >>> 4).toNat = p.protoData.tcpOffset :=
  congrArg UInt8.toNat (offsetByte_parts _ _).1

namespace QTunnelProtoData.ReadsAsTcp

variable {proxy : QTunnelProxy} (h : proxy.protoData.ReadsAsTcp)
include h

/-- The header made from such proto data is complete. -/
theorem complete : proxy.tcpFields.Complete where
  offset_ge := by
    rw [QTunnelProxy.tcpFields_words]
    exact h.offset_ge
  options_length := by
    rw [QTunnelProxy.tcpFields_words]
    exact List.length_take_of_le h.options_le

/-- What the generator makes of the scheme is the header of its fields. -/
theorem generateObject : TcpPacketLittleEndian.generateObject proxy.sourcePort proxy.dstPort
    proxy.tcpFields.seq proxy.tcpFields.ack (proxy.protoData.data.getD 12 0)
    ⟨join (proxy.protoData.data.getD 10 0) (proxy.protoData.data.getD 11 0)⟩
    proxy.tcpFields.window proxy.tcpFields.urgent proxy.protoData.tcpOptionBytes =
      .ok ⟨proxy.tcpFields.header 0⟩ := by
  have hsplit := List.take_append_drop (4 * (proxy.protoData.tcpOffset - 5))
    proxy.protoData.tcpOptionBytes
  have hparse := (h.complete.layout 0).parsePacket_object
    (proxy.protoData.tcpOptionBytes.drop (4 * (proxy.protoData.tcpOffset - 5)))
  rw [TcpFields.header, List.append_assoc] at hparse
  change TcpPacketLittleEndian.parsePacket (_ ++ (List.take _ _ ++ _)) = _ at hparse
  rw [hsplit] at hparse
  rw [TcpPacketLittleEndian.generateObject, TcpPacketLittleEndian.generateObjectBytes,
    (schemeFlags _ _).1, (schemeFlags _ _).2]
  have hidem (b : UByte) : b &&& 0x1 &&& 0x1 = b &&& 0x1 := by
    revert b
    exact forall_byte (by decide +kernel)
  rw [hidem]
  exact hparse

/-- What a scheme reads from such proto data are the fields. -/
theorem scheme_reads : (QTunnelTCPViewScheme.ofBytes proxy.protoData.data).getSeq =
      .ok proxy.tcpFields.seq ∧
    (QTunnelTCPViewScheme.ofBytes proxy.protoData.data).getAck = .ok proxy.tcpFields.ack ∧
    (QTunnelTCPViewScheme.ofBytes proxy.protoData.data).getOffset =
      .ok (proxy.protoData.data.getD 12 0) ∧
    (QTunnelTCPViewScheme.ofBytes proxy.protoData.data).getFlags = .ok ⟨join
      (proxy.protoData.data.getD 10 0) (proxy.protoData.data.getD 11 0)⟩ ∧
    (QTunnelTCPViewScheme.ofBytes proxy.protoData.data).getWindow = .ok proxy.tcpFields.window ∧
    (QTunnelTCPViewScheme.ofBytes proxy.protoData.data).getUrgentPointer =
      .ok proxy.tcpFields.urgent := by
  have hfixed := h.fixed
  have hflags : (QTunnelTCPViewScheme.ofBytes proxy.protoData.data).getFlags = .ok ⟨join
      (proxy.protoData.data.getD 10 0) (proxy.protoData.data.getD 11 0)⟩ := by
    have hword := read16_getD (show 10 + 1 < proxy.protoData.data.length by omega)
    rw [QTunnelTCPViewScheme.getFlags, QTunnelTCPViewScheme.ofBytes, hword]
    rfl
  exact ⟨read32_getD (show 2 + 3 < proxy.protoData.data.length by omega),
    read32_getD (show 6 + 3 < proxy.protoData.data.length by omega),
    readAt_getD (show 12 < proxy.protoData.data.length by omega) 0, hflags,
    read16_getD (show 13 + 1 < proxy.protoData.data.length by omega),
    read16_getD (show 15 + 1 < proxy.protoData.data.length by omega)⟩

end QTunnelProtoData.ReadsAsTcp

/-- The identification and the other fields a new packet takes from a carrier. -/
def carrierFields (mem : List UByte) : Ipv4Fields := Ipv4Fields.ofHeader (mem.take 20)

/-- The header of a new packet has the first byte and the protocol of the carrier. -/
theorem carrierFields_stamped {mem : List UByte} (hwords : declaredWords mem = 5) (total : UShort)
    {src dst : List UByte} (hsrc : src.length = 4) (hdst : dst.length = 4) :
    IsIpv4Layout ((carrierFields mem).stamped total src dst) ∧
      declaredWords ((carrierFields mem).stamped total src dst) = 5 ∧
      ((carrierFields mem).stamped total src dst).getD 0 0 = mem.getD 0 0 ∧
      ((carrierFields mem).stamped total src dst).getD 9 0 = mem.getD 9 0 := by
  have hfirst : (carrierFields mem).first = mem.getD 0 0 := getD_take (by decide) _ _
  have hfive : ((carrierFields mem).first &&& 0xF).toNat = 5 := by
    rw [hfirst]
    exact hwords
  exact ⟨(carrierFields mem).isIpv4Layout hfive total _ hsrc hdst, hfive, hfirst,
    getD_take (by decide) _ _⟩

/-- The checksum over the pseudo header of a new packet. -/
def newChecksum (f : Ipv4Fields) (proxy : QTunnelProxy) (header payload : List UByte)
    (position : ℕ) : UShort :=
  complement (segmentSum (TransportIpv4PseudoHeader.data proxy.sourceAddr proxy.dstAddr
    ⟨f.protocol⟩ (UInt16.ofNat (20 + header.length + payload.length) - 20)) header payload position)

section Carrier

variable {mem : List UByte} (hmem : 20 ≤ mem.length) (hwords : declaredWords mem = 5)
  {proxy : QTunnelProxy} (hsrc : proxy.sourceAddr.ip.length = 4)
  (hdst : proxy.dstAddr.ip.length = 4)
include hmem hwords

/-- The first twenty bytes of the carrier are its header. -/
theorem carrier_layout : IsIpv4Layout (mem.take 20) ∧ declaredWords (mem.take 20) = 5 := by
  have hsame : declaredWords (mem.take 20) = declaredWords mem := by
    rw [declaredWords, declaredWords, getD_take (by decide)]
  have hfive := hsame.trans hwords
  exact ⟨⟨hfive.ge, by rw [hfive, List.length_take_of_le hmem]⟩, hfive⟩

include hsrc hdst

/-- The packet made after a TCP carrier without IP options. -/
theorem FullPacketView.newPacketByThis_tcp (hproto : proxy.protoData.ReadsAsTcp)
    (transport : TcpPacketView) (range : ℤ × ℤ) (payload : List UByte) :
    (FullPacketView.tcp ⟨mem, 0⟩ transport range).newPacketByThis proxy payload =
      .ok (.tcp ((carrierFields mem).stamped
          (UInt16.ofNat (20 + (proxy.tcpFields.header 0).length + payload.length))
          proxy.sourceAddr.ip proxy.dstAddr.ip ++
        proxy.tcpFields.header (newChecksum (carrierFields mem) proxy (proxy.tcpFields.header 0)
          payload 16) ++ payload)) := by
  obtain ⟨hlayout, hfive⟩ := carrier_layout hmem hwords
  have hcomplete := hproto.complete
  obtain ⟨hseq, hack, hoffset, hflags, hwindow, hurgent⟩ := hproto.scheme_reads
  have hparent := hlayout.parsePacket_plain hfive (mem.drop 20)
  have hnet := Ipv4PacketView.generateObject_eq hlayout hfive (mem.drop 20) hsrc hdst
    (UInt16.ofNat ((proxy.tcpFields.header 0).length + payload.length))
  rw [List.take_append_drop] at hparent hnet
  rw [newPacketByThis, QTunnelTCPViewScheme.getOptions_eq, ok_bind, hseq, ok_bind, hack, ok_bind,
    hoffset, ok_bind, hflags, ok_bind, hwindow, ok_bind, hurgent, ok_bind, hproto.generateObject,
    ok_bind]
  dsimp only
  rw [hparent, ok_bind, hnet, ok_bind]
  exact assemble_tcp (carrierFields mem) hfive _ _ hsrc hdst hcomplete payload

end Carrier

end QVPN
