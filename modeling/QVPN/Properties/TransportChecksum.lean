import QVPN.Lib.OnesComplement
import QVPN.Properties.HeaderTransparency
import QVPN.Structures.FatPacket

/-!
# Transport checksums

The four loops that recalculate a transport checksum add the same bytes in different pieces:
pseudo header, header with its options and payload. Each piece but the last has an even
length, so the accumulator ends with the sum over the concatenation, and the one law of a
stored complement applies to all four.
-/

namespace QVPN

open BigEndian Checksum Memory

/-- A TCP header whose options fill its data offset; reserved bits and flags are free. -/
structure IsTcpLayout (header : List UByte) : Prop where
  offset_ge : 5 ≤ declaredOffset header
  length_eq : header.length = 4 * declaredOffset header

namespace IsTcpLayout

variable {header : List UByte} (h : IsTcpLayout header)
include h

/-- The option bytes are what the header has beyond twenty. -/
theorem options_eq : ((header.getD 12 0 >>> 4).toNat - 5 : ℤ) * 4 = header.length - 20 := by
  have hlength := h.length_eq
  rw [declaredOffset] at hlength
  omega

/-- A view counts the bytes of the header. -/
theorem size_toNat : (UInt16.ofInt (20 + ((header.length : ℤ) - 20))).toNat = header.length := by
  have hlength := h.length_eq
  have hle : declaredOffset header ≤ 15 := highNibble_le _
  rw [toNat_ofInt]
  omega

/-- A view of the header ends its options with the header. -/
theorem parsePacket_view (behind : List UByte) : TcpPacketView.parsePacket (header ++ behind) =
    .ok ⟨header ++ behind, header.length - 20⟩ := by
  have hge := h.offset_ge
  have hlength := h.length_eq
  rw [TcpPacketView.parsePacket, readAt_append_getD (by omega) 0, ok_bind, h.options_eq]
  rfl

/-- A copy of the header is the header. -/
theorem parsePacket_object (behind : List UByte) :
    TcpPacketLittleEndian.parsePacket (header ++ behind) = .ok ⟨header⟩ := by
  have hge := h.offset_ge
  have hlength := h.length_eq
  have hread := readAt_getD (show 12 < (header.take 20).length by rw [List.length_take]; omega) 0
  rw [getD_take (by decide)] at hread
  have hfixed : 20 ≤ header.length := by omega
  have hfirst : slice (header ++ behind) 0 20 = .ok (header.take 20) :=
    slice_take hfixed behind rfl
  have hoptions : slice (header ++ behind) 20
      ((20 : ℕ) + ((header.getD 12 0 >>> 4).toNat - 5 : ℤ) * 4) = .ok (header.drop 20) :=
    slice_drop hfixed behind rfl (by rw [h.options_eq]; omega)
  rw [TcpPacketLittleEndian.parsePacket, hfirst, ok_bind, hread, ok_bind, hoptions, ok_bind,
    List.take_append_drop]
  rfl

end IsTcpLayout

/-- A header with zeroes in place of its checksum. -/
def clearedHeader (header : List UByte) (position : ℕ) : List UByte :=
  header.take position ++ bytes16 0 ++ header.drop (position + 2)

/-- The accumulated sum of pseudo header, cleared header and payload. -/
def segmentSum (pseudo header payload : List UByte) (position : ℕ) : UInt :=
  sumBytes (pseudo ++ clearedHeader header position ++ payload) 0

/-- A header that differs from another only in its checksum, which verifies. -/
structure ChecksumStored (pseudo header payload : List UByte) (position : ℕ)
    (header' : List UByte) : Prop where
  /-- After any number of rounds the accumulator is the sum of the words so far. -/
  accumulated (n : ℕ) :
    (sumBytes ((pseudo ++ clearedHeader header position ++ payload).take (2 * n)) 0).toNat =
      wordSum ((pseudo ++ clearedHeader header position ++ payload).take (2 * n))
  folded : foldCarries 2 (segmentSum pseudo header payload position) >>> 16 = 0
  field_only : header' = header.take position ++
    bytes16 (complement (segmentSum pseudo header payload position)) ++ header.drop (position + 2)
  verifies : onesSum (pseudo ++ header' ++ payload) 0 = 65535

theorem clearedHeader_length {header : List UByte} {position : ℕ}
    (h : position + 2 ≤ header.length) : (clearedHeader header position).length = header.length := by
  simp only [clearedHeader, List.length_append, List.length_take, List.length_drop, bytes16_length]
  omega

/-- Memory behind a header does not matter for clearing its checksum. -/
theorem clearedHeader_append {header : List UByte} {position : ℕ}
    (h : position + 2 ≤ header.length) (behind : List UByte) :
    clearedHeader (header ++ behind) position = clearedHeader header position ++ behind := by
  rw [clearedHeader, clearedHeader, List.take_append_of_le_length (by omega),
    List.drop_append_of_le_length h]
  simp only [List.append_assoc]

/-- The complement of the segment's sum verifies at its place. -/
theorem checksumStored {pseudo header payload : List UByte} {position : ℕ}
    (hpseudo : pseudo.length = 12) (heven : position % 2 = 0)
    (hposition : position + 2 ≤ header.length) (hsize : header.length + payload.length ≤ 65535) :
    ChecksumStored pseudo header payload position (header.take position ++
      bytes16 (complement (segmentSum pseudo header payload position)) ++
        header.drop (position + 2)) := by
  have hlength : (pseudo ++ clearedHeader header position ++ payload).length ≤ 65547 := by
    rw [List.length_append, List.length_append, clearedHeader_length hposition]
    omega
  have hfront : (pseudo ++ header.take position).length % 2 = 0 := by
    rw [List.length_append, List.length_take_of_le (by omega)]
    omega
  have hsplit (v : UShort) : pseudo ++ (header.take position ++ bytes16 v ++
      header.drop (position + 2)) ++ payload = (pseudo ++ header.take position) ++ bytes16 v ++
        (header.drop (position + 2) ++ payload) := by
    simp only [List.append_assoc]
  refine ⟨fun n => sumBytes_exact ?_, (foldCarries_residue _).1, rfl, ?_⟩
  · rw [List.length_take]
    omega
  · rw [clearedHeader, hsplit] at hlength
    rw [segmentSum, clearedHeader, hsplit, hsplit]
    exact onesSum_complement hfront hlength

/-- The sum of the three pieces is that of the concatenation. -/
theorem segmentSum_pieces {pseudo header : List UByte} {position : ℕ}
    (hpseudo : pseudo.length = 12) (hheader : header.length % 2 = 0)
    (hposition : position + 2 ≤ header.length) (payload : List UByte) :
    sumBytes payload (sumBytes (clearedHeader header position) (sumBytes pseudo 0)) =
      segmentSum pseudo header payload position := by
  have hcleared := clearedHeader_length hposition
  rw [segmentSum, sumBytes_append _ (by rw [List.length_append]; omega),
    sumBytes_append pseudo (by rw [hpseudo])]

theorem pseudoHeader_length {src dst : NetAddr} (hsrc : src.ip.length = 4) (hdst : dst.ip.length = 4)
    (proto : TransportProtocol) (length : UShort) :
    (TransportIpv4PseudoHeader.data src dst proto length).length = 12 := by
  simp only [TransportIpv4PseudoHeader.data, List.length_append, hsrc, hdst, List.length_cons,
    List.length_nil, bytes16_length]

/-- The twelve bytes of the pseudo header are added first. -/
theorem sumWords_pseudo {pseudo : List UByte} (hpseudo : pseudo.length = 12) :
    sumWords pseudo (wordPositions 12) 0 = .ok (sumBytes pseudo 0) := by
  have h := sumWords_all pseudo (by rw [hpseudo]) 0
  rwa [hpseudo] at h

section Implementations

variable {pseudo header payload : List UByte} (hpseudo : pseudo.length = 12)
include hpseudo

/-- A TCP header held by value. -/
theorem TcpPacketLittleEndian.recalculateTransportChecksum_eq (hheader : header.length % 2 = 0)
    (hlength : 18 ≤ header.length) :
    recalculateTransportChecksum ⟨header⟩ pseudo payload =
      .ok ⟨header.take 16 ++ bytes16 (complement (segmentSum pseudo header payload 16)) ++
        header.drop 18⟩ := by
  have hmem : 16 + 1 < header.length := hlength
  have hcleared := clearedHeader_length hlength
  have hwords := sumWords_all (clearedHeader header 16) (by rw [hcleared, hheader])
    (sumBytes pseudo 0)
  rw [recalculateTransportChecksum, write16_of_lt hmem, ok_bind, ← clearedHeader,
    sumWords_pseudo hpseudo, ok_bind, hwords, ok_bind,
    segmentSum_pieces hpseudo hheader hlength, clearedHeader, write16_again hmem]
  rfl

/-- A UDP header held by value. -/
theorem UdpPacketLittleEndian.recalculateTransportChecksum_eq (hheader : header.length % 2 = 0)
    (hlength : 8 ≤ header.length) :
    recalculateTransportChecksum ⟨header⟩ pseudo payload =
      .ok ⟨header.take 6 ++ bytes16 (complement (segmentSum pseudo header payload 6)) ++
        header.drop 8⟩ := by
  have hmem : 6 + 1 < header.length := hlength
  have hcleared := clearedHeader_length hlength
  have hwords := sumWords_all (clearedHeader header 6) (by rw [hcleared, hheader])
    (sumBytes pseudo 0)
  rw [recalculateTransportChecksum, write16_of_lt hmem, ok_bind, ← clearedHeader,
    sumWords_pseudo hpseudo, ok_bind, hwords, ok_bind,
    segmentSum_pieces hpseudo hheader hlength, clearedHeader, write16_again hmem]
  rfl

/-- A TCP header in place, added in two pieces. -/
theorem TcpPacketView.recalculateTransportChecksum_eq {size : ℤ} (hsize : size = header.length - 20)
    (hheader : header.length % 2 = 0) (hlength : 20 ≤ header.length) (behind : List UByte) :
    recalculateTransportChecksum ⟨header ++ behind, size⟩ pseudo payload =
      .ok ⟨header.take 16 ++ bytes16 (complement (segmentSum pseudo header payload 16)) ++
        header.drop 18 ++ behind, size⟩ := by
  have hmem : 16 + 1 < (header ++ behind).length := by
    rw [List.length_append]
    omega
  have hcleared := clearedHeader_length (show 16 + 2 ≤ header.length by omega)
  have hfixed : ((clearedHeader header 16).take 20).length = 20 :=
    List.length_take_of_le (by omega)
  have hoptions : ((clearedHeader header 16).drop 20).length = size.toNat := by
    rw [List.length_drop]
    omega
  have hsplit : clearedHeader (header ++ behind) 16 = (clearedHeader header 16).take 20 ++
      ((clearedHeader header 16).drop 20 ++ behind) := by
    rw [clearedHeader_append (by omega), ← List.append_assoc, List.take_append_drop]
  have hfirst := sumWords_front ((clearedHeader header 16).take 20) (by rw [hfixed])
    ((clearedHeader header 16).drop 20 ++ behind) (sumBytes pseudo 0)
  have hsecond := sumWords_front ((clearedHeader header 16).drop 20)
    (by rw [List.length_drop]; omega) behind
    (sumBytes ((clearedHeader header 16).take 20) (sumBytes pseudo 0))
  rw [hfixed] at hfirst
  rw [hoptions, ← sumBytes_append (List.take 20 _) (by rw [hfixed]), List.take_append_drop] at hsecond
  rw [recalculateTransportChecksum, write16_of_lt hmem, ok_bind, ← clearedHeader,
    sumWords_pseudo hpseudo, ok_bind, hsplit, hfirst, ok_bind, List.drop_left' hfixed, hsecond,
    ok_bind, segmentSum_pieces hpseudo hheader (by omega), ← hsplit, clearedHeader,
    write16_again hmem, List.take_append_of_le_length (by omega),
    List.drop_append_of_le_length (by omega)]
  simp only [List.append_assoc]
  rfl

/-- A UDP header in place. -/
theorem UdpPacketView.recalculateTransportChecksum_eq (hlength : header.length = 8)
    (behind : List UByte) :
    recalculateTransportChecksum ⟨header ++ behind⟩ pseudo payload =
      .ok ⟨header.take 6 ++ bytes16 (complement (segmentSum pseudo header payload 6)) ++
        header.drop 8 ++ behind⟩ := by
  have hmem : 6 + 1 < (header ++ behind).length := by
    rw [List.length_append]
    omega
  have hcleared := clearedHeader_length (show 6 + 2 ≤ header.length by omega)
  have hwords := sumWords_front (clearedHeader header 6) (by omega) behind
    (sumBytes pseudo 0)
  rw [hcleared, hlength] at hwords
  rw [recalculateTransportChecksum, write16_of_lt hmem, ok_bind, ← clearedHeader,
    sumWords_pseudo hpseudo, ok_bind, clearedHeader_append (by omega), hwords, ok_bind,
    segmentSum_pieces hpseudo (by omega) (by omega), ← clearedHeader_append (by omega),
    clearedHeader, write16_again hmem, List.take_append_of_le_length (by omega),
    List.drop_append_of_le_length (by omega)]
  simp only [List.append_assoc]
  rfl

end Implementations

/-- All four recalculations store a checksum that verifies against a pseudo header of the true
segment length, and leave every other byte of the header and the memory behind it alone. -/
theorem recalculateTransportChecksum_verifies (src dst : NetAddr) (proto : TransportProtocol)
    (hsrc : src.ip.length = 4) (hdst : dst.ip.length = 4) (header payload : List UByte)
    (hsize : header.length + payload.length ≤ 65535) :
    let pseudo := TransportIpv4PseudoHeader.data src dst proto
      (UInt16.ofNat (header.length + payload.length))
    (IsTcpLayout header →
      (∃ p p', TcpPacketLittleEndian.parsePacket header = .ok p ∧
        p.recalculateTransportChecksum pseudo payload = .ok p' ∧
        ChecksumStored pseudo header payload 16 p'.header) ∧
      ∀ behind, ∃ v header', TcpPacketView.parsePacket (header ++ behind) = .ok v ∧
        v.recalculateTransportChecksum pseudo payload =
          .ok ⟨header' ++ behind, v.tcpOptionsSize⟩ ∧
        ChecksumStored pseudo header payload 16 header') ∧
    (header.length = 8 →
      (∃ p p', UdpPacketLittleEndian.parsePacket header header.length = .ok p ∧
        p.recalculateTransportChecksum pseudo payload = .ok p' ∧
        ChecksumStored pseudo header payload 6 p'.header) ∧
      ∀ behind, ∃ header', UdpPacketView.recalculateTransportChecksum ⟨header ++ behind⟩ pseudo
          payload = .ok ⟨header' ++ behind⟩ ∧
        ChecksumStored pseudo header payload 6 header') := by
  intro pseudo
  have hpseudo : pseudo.length = 12 := pseudoHeader_length hsrc hdst proto _
  constructor
  · intro hlayout
    have hge := hlayout.offset_ge
    have hlength := hlayout.length_eq
    have hstored := checksumStored hpseudo (show 16 % 2 = 0 by rfl)
      (show 16 + 2 ≤ header.length by omega) hsize
    constructor
    · have hparse := hlayout.parsePacket_object []
      rw [List.append_nil] at hparse
      exact ⟨_, _, hparse, TcpPacketLittleEndian.recalculateTransportChecksum_eq hpseudo
        (by omega) (by omega), hstored⟩
    · intro behind
      exact ⟨_, _, hlayout.parsePacket_view behind,
        TcpPacketView.recalculateTransportChecksum_eq hpseudo rfl (by omega) (by omega) behind,
        hstored⟩
  · intro hlength
    have hstored := checksumStored hpseudo (show 6 % 2 = 0 by rfl)
      (show 6 + 2 ≤ header.length by omega) hsize
    constructor
    · have hparse : UdpPacketLittleEndian.parsePacket header header.length = .ok ⟨header⟩ := by
        rw [UdpPacketLittleEndian.parsePacket, slice_all header _ rfl]
        rfl
      exact ⟨_, _, hparse, UdpPacketLittleEndian.recalculateTransportChecksum_eq hpseudo
        (by omega) (by omega), hstored⟩
    · intro behind
      exact ⟨_, UdpPacketView.recalculateTransportChecksum_eq hpseudo hlength behind, hstored⟩

/-- A TCP header with options held by value, and a UDP header in place, each before an odd
payload. -/
theorem recalculateTransportChecksum_verifies_oddPayload :
    (∃ p p', TcpPacketLittleEndian.parsePacket optionHeader = .ok p ∧
      p.recalculateTransportChecksum (TransportIpv4PseudoHeader.data ⟨[10, 0, 0, 1]⟩ ⟨[10, 0, 0, 2]⟩
        .TCP 27) [1, 2, 3] = .ok p' ∧
      ChecksumStored (TransportIpv4PseudoHeader.data ⟨[10, 0, 0, 1]⟩ ⟨[10, 0, 0, 2]⟩ .TCP 27)
        optionHeader [1, 2, 3] 16 p'.header) ∧
    ∃ header', UdpPacketView.recalculateTransportChecksum ⟨[0, 53, 4, 210, 0, 9, 7, 7, 255]⟩
        (TransportIpv4PseudoHeader.data ⟨[10, 0, 0, 1]⟩ ⟨[10, 0, 0, 2]⟩ .UDP 9) [255] =
          .ok ⟨header' ++ [255]⟩ ∧
      ChecksumStored (TransportIpv4PseudoHeader.data ⟨[10, 0, 0, 1]⟩ ⟨[10, 0, 0, 2]⟩ .UDP 9)
        [0, 53, 4, 210, 0, 9, 7, 7] [255] 6 header' :=
  ⟨((recalculateTransportChecksum_verifies ⟨[10, 0, 0, 1]⟩ ⟨[10, 0, 0, 2]⟩ .TCP rfl rfl optionHeader
      [1, 2, 3] (by decide)).1 ⟨by decide, by decide⟩).1,
    ((recalculateTransportChecksum_verifies ⟨[10, 0, 0, 1]⟩ ⟨[10, 0, 0, 2]⟩ .UDP rfl rfl
      [0, 53, 4, 210, 0, 9, 7, 7] [255] (by decide)).2 rfl).2 [255]⟩

end QVPN
