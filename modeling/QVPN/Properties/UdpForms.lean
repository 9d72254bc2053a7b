import QVPN.Properties.Ipv4Forms
import QVPN.Structures.UdpGetters

/-!
# The UDP classes

The classes that copy a UDP datagram and the classes that view it, alone, with their payload and
inside an IPv4 packet. A copied UDP header takes everything up to the end it is given, so the
payload becomes part of the header and nothing is left for the payload. The classes agree
exactly on datagrams without payload; inside a packet the view of the IPv4 header has to be
right as well.
-/

namespace QVPN

open BigEndian Checksum Memory

/-- An eight-byte UDP header whose length field counts itself and the payload. -/
structure IsUdpDatagram (transport payload : List UByte) : Prop where
  header_length : transport.length = 8
  udp_length : (join (transport.getD 4 0) (transport.getD 5 0)).toNat = 8 + payload.length

/-- What a UDP packet of some form returns; the checksum is read after a recalculation. -/
structure UdpReadings where
  headerSize : UShort
  srcPort : Except Fault UShort
  dstPort : Except Fault UShort
  length : Except Fault UShort
  payload : Except Fault (List UByte)
  bytes : Except Fault (List UByte)
  checksum : Except Fault UShort

/-- Both forms return, and the same. -/
structure UdpReadings.Agrees (a b : UdpReadings) : Prop where
  header_size : a.headerSize = b.headerSize
  src_port : Agree a.srcPort b.srcPort
  dst_port : Agree a.dstPort b.dstPort
  length : Agree a.length b.length
  payload : Agree a.payload b.payload
  bytes : Agree a.bytes b.bytes
  checksum : Agree a.checksum b.checksum

/-- A header class is given the payload for its checksum. -/
def UdpPacketLittleEndian.readings (p : UdpPacketLittleEndian) (pseudo payload : List UByte) :
    UdpReadings where
  headerSize := p.getSize
  srcPort := p.getUdpSrcPort
  dstPort := p.getUdpDstPort
  length := p.getUdpLength
  payload := .ok payload
  bytes := .ok p.toBytes
  checksum := do
    let p ← p.recalculateTransportChecksum pseudo payload
    p.getUdpChecksum

def UdpPacketView.readings (v : UdpPacketView) (pseudo payload : List UByte) : UdpReadings where
  headerSize := v.getSize
  srcPort := v.getUdpSrcPort
  dstPort := v.getUdpDstPort
  length := v.getUdpLength
  payload := .ok payload
  bytes := v.toTransportBytes
  checksum := do
    let v ← v.recalculateTransportChecksum pseudo payload
    v.getUdpChecksum

def NoNetPacketUdpFatObject.readings (p : NoNetPacketUdpFatObject) (src dst : NetAddr)
    (length : UShort) : UdpReadings where
  headerSize := p.transport.getSize
  srcPort := p.transport.getUdpSrcPort
  dstPort := p.transport.getUdpDstPort
  length := p.transport.getUdpLength
  payload := .ok p.payload
  bytes := .ok p.bytes.1
  checksum := do
    let p ← p.recalculateChecksums src dst length
    p.transport.getUdpChecksum

def NoNetPacketUdpView.readings (v : NoNetPacketUdpView) (src dst : NetAddr) (length : UShort) :
    UdpReadings where
  headerSize := v.transport.getSize
  srcPort := v.transport.getUdpSrcPort
  dstPort := v.transport.getUdpDstPort
  length := v.transport.getUdpLength
  payload := v.getPayload
  bytes := v.bytes
  checksum := do
    let v ← v.recalculateChecksums src dst length
    v.transport.getUdpChecksum

def Ipv4UdpFatPacket.readings (p : Ipv4UdpFatPacket) : UdpReadings where
  headerSize := p.transport.getSize
  srcPort := p.transport.getUdpSrcPort
  dstPort := p.transport.getUdpDstPort
  length := p.transport.getUdpLength
  payload := .ok p.payload
  bytes := .ok p.bytes.1
  checksum := do
    let p ← p.recalculateChecksums
    p.transport.getUdpChecksum

/-- Only a packet carrying UDP has one. -/
def FullPacketView.getUdpChecksum : FullPacketView → Except Fault UShort
  | .udp _ transport _ => transport.getUdpChecksum
  | _ => .error .outOfBounds

/-- Views over memory; how their checksums are recalculated depends on whose memory it is. -/
def udpViewReadings (mem : List UByte) (ip : Ipv4PacketView) (transport : UdpPacketView)
    (payload : ℤ × ℤ) (recalculate : Except Fault FullPacketView) : UdpReadings where
  headerSize := transport.getSize
  srcPort := transport.getUdpSrcPort
  dstPort := transport.getUdpDstPort
  length := transport.getUdpLength
  payload := (FullPacketView.udp ip transport payload).getPayload mem
  bytes := (FullPacketView.udp ip transport payload).bytes mem
  checksum := do
    let view ← recalculate
    view.getUdpChecksum

/-- The header classes over the bytes of a datagram. -/
def UdpHeadersAgree (transport payload behind : List UByte) : Prop :=
  ∃ p, UdpPacketLittleEndian.parsePacket (transport ++ payload ++ behind)
      (transport ++ payload).length = .ok p ∧
    ∀ pseudo data, pseudo.length = 12 → (p.readings pseudo data).Agrees
      (UdpPacketView.readings ⟨transport ++ payload ++ behind⟩ pseudo data)

/-- The classes without a network header over the bytes of a datagram. -/
def NoNetPacketsAgree (transport payload behind : List UByte) : Prop :=
  ∃ p, NoNetPacketUdpFatObject.ofBytes (transport ++ payload ++ behind)
      (transport ++ payload).length = .ok p ∧
    ∀ src dst length, src.ip.length = 4 → dst.ip.length = 4 → (p.readings src dst length).Agrees
      ((NoNetPacketUdpView.ofBytes (transport ++ payload ++ behind)
        (transport ++ payload).length).readings src dst length)

/-- The packet by value and the packet of views into its own vector. -/
def FullPacketObjectsAgree (mem : List UByte) (size : ℕ) : Prop :=
  ∃ p data ip transport payload, Ipv4UdpFatPacket.ofBytes mem size = .ok p ∧
    slice mem 0 size = .ok data ∧
    (FullPacketObject.udp data).view = .ok (.udp ip transport payload) ∧
    p.readings.Agrees (udpViewReadings data ip transport payload (do
      let packet ← (FullPacketObject.udp data).recalculateChecksums
      packet.view))

/-- The packet by value and the packet of views in place. -/
def FullPacketViewsAgree (mem : List UByte) (size : ℕ) : Prop :=
  ∃ p ip transport payload, Ipv4UdpFatPacket.ofBytes mem size = .ok p ∧
    FullPacketView.ipv4Udp mem size = .ok (.udp ip transport payload) ∧
    p.readings.Agrees (udpViewReadings mem ip transport payload
      (FullPacketView.udp ip transport payload).recalculateChecksums)

/-- A range that starts at its end is empty. -/
theorem slice_empty {xs : List UByte} {b : ℤ} (hb : 0 ≤ b) (he : b ≤ xs.length) :
    slice xs b b = .ok [] :=
  slice_eq_ok_iff.mpr ⟨hb, le_refl b, he, by rw [Int.sub_self, Int.toNat_zero, List.take_zero]⟩

/-- The copied header takes everything up to the given end. -/
theorem UdpPacketLittleEndian.parsePacket_prefix (datagram behind : List UByte) :
    parsePacket (datagram ++ behind) datagram.length = .ok ⟨datagram⟩ := by
  have hwhole : slice (datagram ++ behind) 0 (datagram.length : ℕ) = .ok datagram :=
    slice_prefix _ _ _ rfl
  rw [parsePacket, hwhole]
  rfl

/-- A pseudo header is made for every two IPv4 addresses. -/
theorem NoNetPacket.pseudoHeader_eq {src dst : NetAddr} (hsrc : src.ip.length = 4)
    (hdst : dst.ip.length = 4) (length : UShort) :
    ∃ pseudo, pseudo.length = 12 ∧ NoNetPacket.pseudoHeader src dst length = .ok (some pseudo) := by
  have hread {addr : NetAddr} (haddr : addr.ip.length = 4) : ∃ bytes, addr.toIpv4 = .ok bytes := by
    rw [NetAddr.toIpv4, readAt_getD (show 0 < addr.ip.length by omega) 0,
      readAt_getD (show 1 < addr.ip.length by omega) 0,
      readAt_getD (show 2 < addr.ip.length by omega) 0,
      readAt_getD (show 3 < addr.ip.length by omega) 0]
    exact ⟨_, rfl⟩
  obtain ⟨srcBytes, hsrcBytes⟩ := hread hsrc
  obtain ⟨dstBytes, hdstBytes⟩ := hread hdst
  refine ⟨_, pseudoHeader_length (NetAddr.toIpv4_length hsrcBytes) (NetAddr.toIpv4_length hdstBytes)
    .UDP length, ?_⟩
  rw [NoNetPacket.pseudoHeader, NetAddr.getAddrFamily, if_pos hsrc, if_pos rfl, hsrcBytes, ok_bind,
    hdstBytes]
  rfl

section Header

variable {transport : List UByte} (htransport : transport.length = 8)
include htransport

/-- The fields of a header are the same whatever follows it. -/
theorem agree_udpField {i : ℕ} (hi : i + 1 < 8) (behind : List UByte) :
    Agree (read16 transport i) (read16 (transport ++ behind) i) :=
  agree_read16 (by omega) behind

/-- Over the same pseudo header and payload both header classes store the same checksum. -/
theorem agree_udpChecksum {pseudo : List UByte} (hpseudo : pseudo.length = 12)
    (data behind : List UByte) :
    Agree (UdpPacketLittleEndian.recalculateTransportChecksum ⟨transport⟩ pseudo data >>=
        (·.getUdpChecksum))
      (UdpPacketView.recalculateTransportChecksum ⟨transport ++ behind⟩ pseudo data >>=
        (·.getUdpChecksum)) := by
  have hfront : (transport.take 6).length = 6 := List.length_take_of_le (by omega)
  have hstored (rest : List UByte) (sum : UShort) :
      read16 (transport.take 6 ++ bytes16 sum ++ rest) 6 = .ok sum := by
    have h := read16_append (transport.take 6) sum rest
    rwa [hfront] at h
  rw [UdpPacketLittleEndian.recalculateTransportChecksum_eq hpseudo (by omega) (by omega), ok_bind,
    UdpPacketView.recalculateTransportChecksum_eq hpseudo htransport behind, ok_bind]
  refine ⟨_, hstored _ _, ?_⟩
  rw [UdpPacketView.getUdpChecksum, List.append_assoc (_ ++ _)]
  exact hstored _ _

end Header

namespace IsUdpDatagram

variable {transport payload : List UByte} (h : IsUdpDatagram transport payload)
include h

theorem length_le : (transport ++ payload).length ≤ 65535 := by
  have hlt := (join (transport.getD 4 0) (transport.getD 5 0)).toNat_lt
  rw [h.udp_length] at hlt
  rw [List.length_append, h.header_length]
  omega

theorem getSize_toNat :
    (UdpPacketLittleEndian.getSize ⟨transport ++ payload⟩).toNat = (transport ++ payload).length := by
  have hle := h.length_le
  rw [UdpPacketLittleEndian.getSize, UInt16.toNat_ofNat']
  dsimp only
  omega

/-- A copy that has the size of a header has copied no payload. -/
theorem payload_eq_nil (hsize : UdpPacketLittleEndian.getSize ⟨transport ++ payload⟩ = 8) :
    payload = [] := by
  have hlength := h.getSize_toNat
  rw [hsize, List.length_append, h.header_length] at hlength
  exact List.length_eq_zero_iff.mp (by change 8 = _ at hlength; omega)

/-- The header classes agree exactly on a datagram without payload. -/
theorem headersAgree_iff (behind : List UByte) :
    UdpHeadersAgree transport payload behind ↔ payload = [] := by
  constructor
  · rintro ⟨p, hp, hagree⟩
    cases Except.ok.inj
      ((UdpPacketLittleEndian.parsePacket_prefix (transport ++ payload) behind).symm.trans hp)
    exact h.payload_eq_nil (hagree (List.replicate 12 0) [] rfl).header_size
  · intro hnone
    have hcopy := UdpPacketLittleEndian.parsePacket_prefix (transport ++ payload) behind
    have hlength := h.header_length
    rw [hnone, List.append_nil] at hcopy
    refine ⟨⟨transport⟩, by rw [hnone, List.append_nil]; exact hcopy, fun pseudo data hpseudo => ?_⟩
    rw [hnone, List.append_nil]
    exact {
      header_size := by
        rw [UdpPacketLittleEndian.readings, UdpPacketLittleEndian.getSize, hlength]
        rfl
      src_port := agree_udpField hlength (by decide) behind
      dst_port := agree_udpField hlength (by decide) behind
      length := agree_udpField hlength (by decide) behind
      payload := .ok data
      bytes := ⟨transport, rfl, slice_prefix _ _ _ (by rw [hlength]; rfl)⟩
      checksum := agree_udpChecksum hlength hpseudo data behind }

/-- The fat packet without a network header has no payload. -/
theorem ofBytes_noNet (behind : List UByte) :
    NoNetPacketUdpFatObject.ofBytes (transport ++ payload ++ behind) (transport ++ payload).length =
      .ok ⟨⟨transport ++ payload⟩, [], []⟩ := by
  have hlen : (transport ++ payload ++ behind).length =
      (transport ++ payload).length + behind.length := List.length_append
  have hnone : slice (transport ++ payload ++ behind)
      ((UdpPacketLittleEndian.getSize ⟨transport ++ payload⟩).toNat : ℕ)
      ((transport ++ payload).length : ℕ) = .ok [] := by
    rw [h.getSize_toNat]
    exact slice_empty (by omega) (by omega)
  rw [NoNetPacketUdpFatObject.ofBytes, UdpPacketLittleEndian.parsePacket_prefix, ok_bind, hnone]
  rfl

/-- So do the classes without a network header. -/
theorem noNetPacketsAgree_iff (behind : List UByte) :
    NoNetPacketsAgree transport payload behind ↔ payload = [] := by
  constructor
  · rintro ⟨p, hp, hagree⟩
    cases Except.ok.inj ((h.ofBytes_noNet behind).symm.trans hp)
    exact h.payload_eq_nil (hagree ⟨List.replicate 4 0⟩ ⟨List.replicate 4 0⟩ 8 rfl rfl).header_size
  · intro hnone
    have hcopy := h.ofBytes_noNet behind
    have hlength := h.header_length
    rw [hnone, List.append_nil] at hcopy
    refine ⟨⟨⟨transport⟩, [], []⟩, by rw [hnone, List.append_nil]; exact hcopy,
      fun src dst length hsrc hdst => ?_⟩
    rw [hnone, List.append_nil]
    obtain ⟨pseudo, hpseudo, hmade⟩ := NoNetPacket.pseudoHeader_eq hsrc hdst length
    have hempty : slice (transport ++ behind) ((8 : ℕ) : ℤ) (transport.length : ℕ) = .ok [] := by
      rw [hlength]
      exact slice_empty (by decide) (by rw [List.length_append]; omega)
    exact {
      header_size := by
        rw [NoNetPacketUdpFatObject.readings, UdpPacketLittleEndian.getSize, hlength]
        rfl
      src_port := agree_udpField hlength (by decide) behind
      dst_port := agree_udpField hlength (by decide) behind
      length := agree_udpField hlength (by decide) behind
      payload := ⟨[], rfl, hempty⟩
      bytes := ⟨transport, by simp [NoNetPacketUdpFatObject.readings, NoNetPacketUdpFatObject.bytes],
        slice_prefix _ _ _ rfl⟩
      checksum := by
        obtain ⟨sum, hfat, hview⟩ := agree_udpChecksum hlength hpseudo [] behind
        obtain ⟨p, hp, hsum⟩ := bind_eq_ok_iff.mp hfat
        obtain ⟨v, hv, hsum'⟩ := bind_eq_ok_iff.mp hview
        refine ⟨sum, ?_, ?_⟩
        · rw [NoNetPacketUdpFatObject.readings, NoNetPacketUdpFatObject.recalculateChecksums, hmade,
            ok_bind]
          dsimp only
          rw [hp]
          exact hsum
        · rw [NoNetPacketUdpView.readings, NoNetPacketUdpView.recalculateChecksums, hmade, ok_bind]
          dsimp only
          rw [NoNetPacketUdpView.getPayload, NoNetPacketUdpView.ofBytes]
          dsimp only
          rw [show (UdpPacketView.getSize ⟨transport ++ behind⟩).toNat = 8 from rfl, hempty, ok_bind,
            hv]
          exact hsum' }

end IsUdpDatagram

/-- Behind the addresses of a plain header the pseudo header does not depend on the class. -/
theorem pseudoHeader_agree {net : List UByte} (hlength : net.length = 20) (rest : List UByte) :
    ∃ pseudo, pseudo.length = 12 ∧ Ipv4UdpFatPacket.pseudoHeader ⟨net⟩ = .ok pseudo ∧
      FullPacketObject.pseudoHeader ⟨net ++ rest, 0⟩ = .ok pseudo := by
  have hagree := ipv4GettersAgree_plain hlength rest
  obtain ⟨total, htotal, htotal'⟩ := hagree.ip_total_length
  obtain ⟨words, hwords, hwords'⟩ := hagree.ip_header_length
  obtain ⟨src, hsrc, hsrc'⟩ := hagree.src_addr
  obtain ⟨dst, hdst, hdst'⟩ := hagree.dst_addr
  obtain ⟨proto, hproto, hproto'⟩ := hagree.ip_protocol
  have haddress {b e : ℤ} {addr : NetAddr} (hread : (slice net b e >>= fun ip =>
      Except.ok (⟨ip⟩ : NetAddr)) = .ok addr) (hdistance : e - b = 4) : addr.ip.length = 4 := by
    obtain ⟨ip, hip, hread⟩ := bind_eq_ok_iff.mp hread
    cases Except.ok.inj hread
    have hcount := slice_length hip
    dsimp only
    omega
  refine ⟨_, pseudoHeader_length (haddress hsrc rfl) (haddress hdst rfl) proto
    (total - words.toUInt16 * 4), ?_, ?_⟩
  · rw [Ipv4UdpFatPacket.pseudoHeader, htotal, ok_bind, hwords, ok_bind, hsrc, ok_bind, hdst,
      ok_bind, hproto]
    rfl
  · rw [FullPacketObject.pseudoHeader, htotal', ok_bind, hwords', ok_bind, hsrc', ok_bind, hdst',
      ok_bind, hproto']
    rfl

/-- Over a plain header both IPv4 classes store the same checksum, and no size changes. -/
theorem recalculateIpChecksum_agree {net : List UByte} (hlength : net.length = 20)
    (rest : List UByte) :
    ∃ net', net'.length = 20 ∧ declaredWords net' = declaredWords net ∧
      Ipv4PacketLittleEndian.recalculateIpChecksum ⟨net⟩ = .ok ⟨net'⟩ ∧
      Ipv4PacketView.recalculateIpChecksum ⟨net ++ rest, 0⟩ = .ok ⟨net' ++ rest, 0⟩ := by
  refine ⟨_, ?_, ?_, Ipv4PacketLittleEndian.recalculateIpChecksum_eq (by omega) (by omega),
    Ipv4PacketView.recalculateIpChecksum_plain hlength rest⟩
  · rw [List.length_append, List.length_append, List.length_take_of_le (by omega), bytes16_length,
      List.length_drop, hlength]
  · have hfirst (tail : List UByte) : (net.take 10 ++ tail).getD 0 0 = net.getD 0 0 := by
      rw [← getD_take (show 0 < 10 by decide) net 0, List.getD_eq_getElem?_getD,
        List.getElem?_append_left (by rw [List.length_take_of_le (by omega)]; decide),
        List.getD_eq_getElem?_getD]
    rw [declaredWords, declaredWords, List.append_assoc, hfirst]

section Checksums

variable {net transport : List UByte} (hlength : net.length = 20) (htransport : transport.length = 8)
include hlength htransport

/-- Without options and payload a packet by value and views in place store the same checksum. -/
theorem agree_checksum_view (behind : List UByte) {stop : ℤ} (hstop : stop = 28) :
    Agree (Ipv4UdpFatPacket.recalculateChecksums ⟨⟨net⟩, ⟨transport⟩, [], []⟩ >>=
        (·.transport.getUdpChecksum))
      ((FullPacketView.udp ⟨net ++ (transport ++ behind), 0⟩ ⟨transport ++ behind⟩
        (28, stop)).recalculateChecksums >>= (·.getUdpChecksum)) := by
  subst hstop
  obtain ⟨net', hlength', -, hnet, hview⟩ := recalculateIpChecksum_agree hlength (transport ++ behind)
  obtain ⟨pseudo, hpseudo, hfat, hpseudoView⟩ := pseudoHeader_agree hlength' (transport ++ behind)
  obtain ⟨sum, hcopy, hplace⟩ := agree_udpChecksum htransport hpseudo [] behind
  obtain ⟨p, hp, hsum⟩ := bind_eq_ok_iff.mp hcopy
  obtain ⟨v, hv, hsum'⟩ := bind_eq_ok_iff.mp hplace
  have hempty : slice (net' ++ (transport ++ behind)) 28 28 = .ok [] :=
    slice_empty (by decide) (by simp only [List.length_append]; omega)
  have hdrop : (net' ++ (transport ++ behind)).drop (Ipv4PacketView.getSize
      ⟨net ++ (transport ++ behind), 0⟩).toNat = transport ++ behind := List.drop_left' hlength'
  refine ⟨sum, ?_, ?_⟩
  · rw [Ipv4UdpFatPacket.recalculateChecksums, hnet, ok_bind, hfat, ok_bind, hp]
    exact hsum
  · rw [FullPacketView.recalculateChecksums, hview, ok_bind, hempty, ok_bind, hpseudoView, ok_bind,
      hdrop, hv]
    exact hsum'

/-- So do a packet by value and views into an own vector. -/
theorem agree_checksum_object (hnet : IsIpv4Layout net) :
    Agree (Ipv4UdpFatPacket.recalculateChecksums ⟨⟨net⟩, ⟨transport⟩, [], []⟩ >>=
        (·.transport.getUdpChecksum))
      ((FullPacketObject.udp (net ++ transport)).recalculateChecksums >>= fun packet =>
        packet.view >>= (·.getUdpChecksum)) := by
  obtain ⟨net', hlength', hwords', hcopied, hview⟩ := recalculateIpChecksum_agree hlength transport
  obtain ⟨pseudo, hpseudo, hfat, hpseudoView⟩ := pseudoHeader_agree hlength' transport
  obtain ⟨sum, hcopy, hplace⟩ := agree_udpChecksum htransport hpseudo [] []
  obtain ⟨p, hp, hsum⟩ := bind_eq_ok_iff.mp hcopy
  rw [List.append_nil] at hplace
  obtain ⟨v, hv, hsum'⟩ := bind_eq_ok_iff.mp hplace
  have hplain : declaredWords net = 5 := by
    have hwords := hnet.length_eq
    omega
  have hnet' : IsIpv4Layout net' := ⟨by omega, by omega⟩
  have hmade := hnet.parsePacket_plain hplain transport
  have hempty : slice (net' ++ transport) ((20 : ℕ) + (8 : ℕ) : ℤ)
      ((net' ++ transport).length : ℕ) = .ok [] := by
    rw [show ((net' ++ transport).length : ℤ) = 28 by rw [List.length_append]; omega]
    exact slice_empty (by decide) (by rw [List.length_append]; omega)
  have hdrop : (net' ++ transport).drop 20 = transport := List.drop_left' hlength'
  have htake : (net' ++ transport).take 20 = net' := List.take_left' hlength'
  refine ⟨sum, ?_, ?_⟩
  · rw [Ipv4UdpFatPacket.recalculateChecksums, hcopied, ok_bind, hfat, ok_bind, hp]
    exact hsum
  · have hrecalc : (FullPacketObject.udp (net ++ transport)).recalculateChecksums =
        .ok (.udp (net' ++ v.header)) := by
      rw [FullPacketObject.recalculateChecksums, hmade, ok_bind, hview, ok_bind]
      change (slice (net' ++ transport) ((20 : ℕ) + (8 : ℕ) : ℤ) ((net' ++ transport).length : ℕ) >>=
        fun payload => _) = _
      rw [hempty, ok_bind, hpseudoView, ok_bind]
      change (UdpPacketView.recalculateTransportChecksum ⟨(net' ++ transport).drop 20⟩ pseudo [] >>=
        fun transport' => Except.ok
          (FullPacketObject.udp ((net' ++ transport).take 20 ++ transport'.header))) = _
      rw [hdrop, hv, htake]
      rfl
    rw [hrecalc, ok_bind, FullPacketObject.view, FullPacketView.ipv4Udp_plain hnet' (by omega)]
    exact hsum'

end Checksums

namespace IsIpv4Packet

variable {net transport payload : List UByte} (h : IsIpv4Packet .UDP net transport payload)
include h

theorem isUdpDatagram : IsUdpDatagram transport payload := by
  rcases h.transport_header with ⟨hproto, -⟩ | ⟨-, hlength, hcount⟩
  · cases hproto
  · exact ⟨hlength, hcount⟩

/-- Views find an empty payload only where the copy has taken nothing along and they have counted
the network header right. -/
theorem view_payload_nil {mem rest : List UByte} (hmem : mem = net ++ rest) {ip : Ipv4PacketView}
    {view : UdpPacketView} {range : ℤ × ℤ} (hview : FullPacketView.ipv4Udp mem
      (net ++ transport ++ payload).length = .ok (.udp ip view range))
    (hnone : slice mem range.1 range.2 = .ok []) : payload = [] ∧ declaredWords net = 5 := by
  subst hmem
  obtain ⟨ip', hip, hsize⟩ := h.layout.parsePacket_view rest
  rw [FullPacketView.ipv4Udp, hip, ok_bind] at hview
  cases Except.ok.inj hview
  have hge := h.layout.words_ge
  have hwords := h.layout.length_eq
  have htransport := h.isUdpDatagram.header_length
  have hcount := slice_length hnone
  dsimp only at hcount
  rw [hsize, List.length_append, List.length_append, List.length_nil] at hcount
  change ((0 : ℕ) : ℤ) = _ - (_ + ((8 : ℕ) : ℤ)) at hcount
  have hpayload : payload.length = 0 := by omega
  exact ⟨List.length_eq_zero_iff.mp hpayload, by omega⟩

/-- The fat packet has no payload of its own. -/
theorem readings_payload {p : Ipv4UdpFatPacket} {behind : List UByte}
    (hp : Ipv4UdpFatPacket.ofBytes (net ++ transport ++ payload ++ behind)
      (net ++ transport ++ payload).length = .ok p) : p.readings.payload = .ok [] := by
  cases Except.ok.inj ((h.ofBytes_udp behind).symm.trans hp)
  rfl

/-- Packet by value and packet of views in place, in the one case where they agree. -/
theorem fullPacketViewsAgree_plain (hnone : payload = []) (hwords : declaredWords net = 5)
    (behind : List UByte) :
    FullPacketViewsAgree (net ++ transport ++ payload ++ behind)
      (net ++ transport ++ payload).length := by
  subst hnone
  have hlength : net.length = 20 := by rw [h.layout.length_eq, hwords]
  have htransport := h.isUdpDatagram.header_length
  have hfat := h.ofBytes_udp behind
  have hview := FullPacketView.ipv4Udp_plain h.layout hwords (transport ++ behind)
    (net ++ transport).length
  have hsum := agree_checksum_view hlength htransport behind
    (show ((net ++ transport).length : ℤ) = 28 by rw [List.length_append]; omega)
  simp only [List.append_nil, ← List.append_assoc] at hfat hview hsum ⊢
  refine ⟨_, _, _, _, hfat, hview, ?_⟩
  have hsize : (net ++ transport).length = 28 := by
    rw [List.length_append, hlength, htransport]
  have hempty : slice (net ++ transport ++ behind) 28 ((net ++ transport).length : ℕ) = .ok [] := by
    rw [hsize]
    exact slice_empty (by decide) (by rw [List.length_append, hsize]; omega)
  exact {
    header_size := by
      rw [Ipv4UdpFatPacket.readings, UdpPacketLittleEndian.getSize, htransport]
      rfl
    src_port := agree_udpField htransport (by decide) behind
    dst_port := agree_udpField htransport (by decide) behind
    length := agree_udpField htransport (by decide) behind
    payload := ⟨[], rfl, hempty⟩
    bytes := ⟨net ++ transport, by simp [Ipv4UdpFatPacket.readings, Ipv4UdpFatPacket.bytes],
      slice_prefix _ _ _ rfl⟩
    checksum := hsum }

/-- Packet by value and packet of views into its own vector, in the one case where they agree. -/
theorem fullPacketObjectsAgree_plain (hnone : payload = []) (hwords : declaredWords net = 5)
    (behind : List UByte) :
    FullPacketObjectsAgree (net ++ transport ++ payload ++ behind)
      (net ++ transport ++ payload).length := by
  subst hnone
  have hlength : net.length = 20 := by rw [h.layout.length_eq, hwords]
  have htransport := h.isUdpDatagram.header_length
  have hfat := h.ofBytes_udp behind
  have hview := FullPacketView.ipv4Udp_plain h.layout hwords transport (net ++ transport).length
  have hdata : slice (net ++ transport ++ behind) 0 ((net ++ transport).length : ℕ) =
      .ok (net ++ transport) := slice_prefix _ _ _ rfl
  obtain ⟨sum, hsum, hsum'⟩ := agree_checksum_object hlength htransport h.layout
  simp only [List.append_nil] at hfat ⊢
  refine ⟨_, net ++ transport, _, _, _, hfat, hdata, hview, ?_⟩
  have hsize : (net ++ transport).length = 28 := by
    rw [List.length_append, hlength, htransport]
  have hempty : slice (net ++ transport) 28 ((net ++ transport).length : ℕ) = .ok [] := by
    rw [hsize]
    exact slice_empty (by decide) (by rw [hsize]; decide)
  have hfield {i : ℕ} (hi : i + 1 < 8) : Agree (read16 transport i) (read16 transport i) := by
    have hsame := agree_udpField htransport hi []
    rwa [List.append_nil] at hsame
  exact {
    header_size := by
      rw [Ipv4UdpFatPacket.readings, UdpPacketLittleEndian.getSize, htransport]
      rfl
    src_port := hfield (by decide)
    dst_port := hfield (by decide)
    length := hfield (by decide)
    payload := ⟨[], rfl, hempty⟩
    bytes := ⟨net ++ transport, by simp [Ipv4UdpFatPacket.readings, Ipv4UdpFatPacket.bytes],
      slice_all _ _ rfl⟩
    checksum := ⟨sum, hsum, by rw [udpViewReadings, bind_assoc]; exact hsum'⟩ }

/-- The full packets over views in place agree exactly without options and payload. -/
theorem fullPacketViewsAgree_iff (behind : List UByte) :
    FullPacketViewsAgree (net ++ transport ++ payload ++ behind)
        (net ++ transport ++ payload).length ↔ payload = [] ∧ declaredWords net = 5 := by
  constructor
  · rintro ⟨p, ip, view, range, hp, hview, hagree⟩
    obtain ⟨data, hfat, hplace⟩ := hagree.payload
    cases Except.ok.inj ((h.readings_payload hp).symm.trans hfat)
    have hmem : net ++ transport ++ payload ++ behind = net ++ (transport ++ payload ++ behind) := by
      simp only [List.append_assoc]
    exact h.view_payload_nil hmem hview hplace
  · rintro ⟨hnone, hwords⟩
    exact h.fullPacketViewsAgree_plain hnone hwords behind

/-- The full packets over an own vector agree exactly without options and payload. -/
theorem fullPacketObjectsAgree_iff (behind : List UByte) :
    FullPacketObjectsAgree (net ++ transport ++ payload ++ behind)
        (net ++ transport ++ payload).length ↔ payload = [] ∧ declaredWords net = 5 := by
  constructor
  · rintro ⟨p, data, ip, view, range, hp, hdata, hview, hagree⟩
    have hwhole : slice (net ++ transport ++ payload ++ behind) 0
        ((net ++ transport ++ payload).length : ℕ) = .ok (net ++ transport ++ payload) :=
      slice_prefix _ _ _ rfl
    cases Except.ok.inj (hwhole.symm.trans hdata)
    obtain ⟨bytes, hfat, hplace⟩ := hagree.payload
    cases Except.ok.inj ((h.readings_payload hp).symm.trans hfat)
    exact h.view_payload_nil (List.append_assoc net transport payload) hview hplace
  · rintro ⟨hnone, hwords⟩
    exact h.fullPacketObjectsAgree_plain hnone hwords behind

end IsIpv4Packet

/-- All classes that copy a UDP datagram agree with those that view it, alone, with its payload
and in every IPv4 packet that contains it, exactly when there is no payload and, in a packet, no
IPv4 option. -/
theorem udpForms_agree_iff {transport payload : List UByte} (h : IsUdpDatagram transport payload)
    (behind : List UByte) :
    (UdpHeadersAgree transport payload behind ↔ payload = []) ∧
    (NoNetPacketsAgree transport payload behind ↔ payload = []) ∧
    ∀ net, IsIpv4Packet .UDP net transport payload →
      (FullPacketObjectsAgree (net ++ transport ++ payload ++ behind)
        (net ++ transport ++ payload).length ↔ payload = [] ∧ declaredWords net = 5) ∧
      (FullPacketViewsAgree (net ++ transport ++ payload ++ behind)
        (net ++ transport ++ payload).length ↔ payload = [] ∧ declaredWords net = 5) :=
  ⟨h.headersAgree_iff behind, h.noNetPacketsAgree_iff behind, fun _ hnet =>
    ⟨hnet.fullPacketObjectsAgree_iff behind, hnet.fullPacketViewsAgree_iff behind⟩⟩

/-- The headers of a packet to port 1234 without payload. -/
def emptyDatagramHeader : List UByte :=
  [0x45, 0, 0, 28, 0, 1, 0x40, 0, 64, 17, 0, 0, 10, 0, 0, 1, 10, 0, 0, 2]

def emptyUdpHeader : List UByte := [0, 53, 4, 210, 0, 8, 0, 0]

/-- The UDP header of eleven bytes to port 1234. -/
def udpHeader : List UByte := [0, 53, 4, 210, 0, 11, 0, 0]

/-- Three payload bytes: the copy has a header of eleven bytes and reads behind it for the
checksum, and no form over it agrees with its view. -/
theorem udpHeader_forms_disagree : IsUdpDatagram udpHeader [1, 2, 3] ∧
    IsIpv4Packet .UDP datagramHeader udpHeader [1, 2, 3] ∧
    ((UdpPacketLittleEndian.parsePacket (udpHeader ++ [1, 2, 3]) 11).map (·.getSize) = .ok 11) ∧
    ((NoNetPacketUdpFatObject.ofBytes (udpHeader ++ [1, 2, 3]) 11 >>=
      (·.recalculateChecksums ⟨[10, 0, 0, 1]⟩ ⟨[10, 0, 0, 2]⟩ 11)) = .error .outOfBounds) ∧
    ¬ UdpHeadersAgree udpHeader [1, 2, 3] [] ∧ ¬ NoNetPacketsAgree udpHeader [1, 2, 3] [] ∧
    ¬ FullPacketObjectsAgree (datagramHeader ++ udpHeader ++ [1, 2, 3] ++ []) 31 ∧
    ¬ FullPacketViewsAgree (datagramHeader ++ udpHeader ++ [1, 2, 3] ++ []) 31 := by
  have hdatagram : IsUdpDatagram udpHeader [1, 2, 3] := ⟨by decide, by decide⟩
  have hpacket : IsIpv4Packet .UDP datagramHeader udpHeader [1, 2, 3] :=
    ⟨by decide, ⟨by decide, by decide⟩, by decide, by decide, .inr ⟨rfl, by decide, by decide⟩⟩
  refine ⟨hdatagram, hpacket, by decide, by decide, ?_, ?_, ?_, ?_⟩
  · rw [hdatagram.headersAgree_iff]
    decide
  · rw [hdatagram.noNetPacketsAgree_iff]
    decide
  · exact fun h => absurd ((hpacket.fullPacketObjectsAgree_iff []).mp h).1 (by decide)
  · exact fun h => absurd ((hpacket.fullPacketViewsAgree_iff []).mp h).1 (by decide)

/-- A datagram without payload, alone and in a packet without options. -/
theorem udpForms_agree_iff_packet : UdpHeadersAgree emptyUdpHeader [] [7, 7] ∧
    NoNetPacketsAgree emptyUdpHeader [] [7, 7] ∧
    FullPacketObjectsAgree (emptyDatagramHeader ++ emptyUdpHeader ++ [] ++ [7, 7]) 28 ∧
    FullPacketViewsAgree (emptyDatagramHeader ++ emptyUdpHeader ++ [] ++ [7, 7]) 28 := by
  have hdatagram : IsUdpDatagram emptyUdpHeader [] := ⟨by decide, by decide⟩
  have hpacket : IsIpv4Packet .UDP emptyDatagramHeader emptyUdpHeader [] :=
    ⟨by decide, ⟨by decide, by decide⟩, by decide, by decide, .inr ⟨rfl, by decide, by decide⟩⟩
  obtain ⟨hheaders, hnoNet, hfull⟩ := udpForms_agree_iff hdatagram [7, 7]
  obtain ⟨hobjects, hviews⟩ := hfull emptyDatagramHeader hpacket
  exact ⟨hheaders.mpr rfl, hnoNet.mpr rfl, hobjects.mpr ⟨rfl, rfl⟩, hviews.mpr ⟨rfl, rfl⟩⟩

end QVPN
