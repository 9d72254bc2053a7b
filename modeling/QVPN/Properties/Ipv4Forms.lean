import QVPN.Lib.Agreement
import QVPN.Properties.PacketBoundaries
import QVPN.Structures.Ipv4Getters

/-!
# The two IPv4 classes

A copied and a viewed IPv4 header over the same bytes. Both read the fixed fields alike; the
size, the additional header, the bytes and the checksum go through the classes' own counts. The
copy counts options in words and the view takes the number of words for a number of bytes, so
the classes agree exactly on headers without options.
-/

namespace QVPN

open BigEndian Checksum Memory

/-- Both classes return the same from every getter. -/
structure Ipv4GettersAgree (p : Ipv4PacketLittleEndian) (v : Ipv4PacketView) : Prop where
  size : p.getSize = v.getSize
  ip_version : Agree p.getIpVersion v.getIpVersion
  ip_header_length : Agree p.getIpHeaderLength v.getIpHeaderLength
  ip_dscp : Agree p.getIpDscp v.getIpDscp
  ip_ecn : Agree p.getIpEcn v.getIpEcn
  ip_total_length : Agree p.getIpTotalLength v.getIpTotalLength
  ip_id : Agree p.getIpId v.getIpId
  ip_flags : Agree p.getIpFlags v.getIpFlags
  ip_df_flag : Agree p.getIpDfFlag v.getIpDfFlag
  ip_mf_flag : Agree p.getIpMfFlag v.getIpMfFlag
  ip_offset : Agree p.getIpOffset v.getIpOffset
  ip_ttl : Agree p.getIpTtl v.getIpTtl
  ip_protocol : Agree p.getIpProtocol v.getIpProtocol
  ip_checksum : Agree p.getIpChecksum v.getIpChecksum
  ip_source : Agree p.getIpSource v.getIpSource
  ip_dest : Agree p.getIpDest v.getIpDest
  src_addr : Agree p.getSrcAddr v.getSrcAddr
  dst_addr : Agree p.getDstAddr v.getDstAddr
  ip_additional_header : Agree p.getIpAdditionalHeader v.getIpAdditionalHeader
  to_bytes : Agree (.ok p.toBytes) v.toNetBytes

/-- Both classes over the same header, with memory behind it: their getters agree, and after
their recalculations they hold the same bytes, which verify over the declared length. -/
structure Ipv4FormsAgree (net behind : List UByte) (p : Ipv4PacketLittleEndian)
    (v : Ipv4PacketView) : Prop where
  object_made : Ipv4PacketLittleEndian.parsePacket (net ++ behind) = .ok p
  view_made : Ipv4PacketView.parsePacket (net ++ behind) = .ok v
  getters : Ipv4GettersAgree p v
  recalculated : ∃ p' v' bytes, p.recalculateIpChecksum = .ok p' ∧
    v.recalculateIpChecksum = .ok v' ∧ p'.toBytes = bytes ∧ v'.toNetBytes = .ok bytes ∧
      bytes.length = 4 * declaredWords net ∧ onesSum bytes 0 = 65535

/-- A field of one byte is the same whatever follows. -/
theorem Ipv4Header.agree_byteField {net : List UByte} {i : ℕ} (h : i < net.length)
    (f : UByte → UByte) (behind : List UByte) :
    Agree (byteField net i f) (byteField (net ++ behind) i f) :=
  (agree_readAt h behind).map f

theorem Ipv4Header.agree_address {net : List UByte} {i : ℕ} (h : i + 3 < net.length)
    (behind : List UByte) : Agree (address net i) (address (net ++ behind) i) :=
  (agree_readAt (by omega) behind).bind fun _ => (agree_readAt (by omega) behind).bind fun _ =>
    (agree_readAt (by omega) behind).bind fun _ => (agree_readAt h behind).map _

/-- Over a plain header the getters of the view are those of the copy. -/
theorem ipv4GettersAgree_plain {net : List UByte} (hlength : net.length = 20)
    (behind : List UByte) : Ipv4GettersAgree ⟨net⟩ ⟨net ++ behind, 0⟩ := by
  have hread {i : ℕ} (hi : i < 20) : Agree (readAt net i) (readAt (net ++ behind) i) :=
    agree_readAt (by omega) behind
  have hbyte {i : ℕ} (hi : i < 20) (f : UByte → UByte) :=
    Ipv4Header.agree_byteField (show i < net.length by omega) f behind
  have hword {i : ℕ} (hi : i + 1 < 20) : Agree (read16 net i) (read16 (net ++ behind) i) :=
    agree_read16 (by omega) behind
  have haddress {i : ℕ} (hi : i + 3 < 20) :=
    Ipv4Header.agree_address (show i + 3 < net.length by omega) behind
  have hrange {b e : ℤ} (hb : 0 ≤ b) (hbe : b ≤ e) (he : e ≤ 20) :
      Agree (slice net b e) (slice (net ++ behind) b e) := agree_slice hb hbe (by omega) behind
  exact {
    size := by
      rw [Ipv4PacketLittleEndian.getSize, hlength]
      rfl
    ip_version := (hread (by decide)).map _
    ip_header_length := (hread (by decide)).map _
    ip_dscp := hbyte (by decide) _
    ip_ecn := hbyte (by decide) _
    ip_total_length := hword (by decide)
    ip_id := hword (by decide)
    ip_flags := hbyte (by decide) _
    ip_df_flag := (hbyte (by decide) _).map _
    ip_mf_flag := (hbyte (by decide) _).map _
    ip_offset := (hread (by decide)).bind fun _ => (hread (by decide)).map _
    ip_ttl := hread (by decide)
    ip_protocol := (hread (by decide)).map _
    ip_checksum := hword (by decide)
    ip_source := haddress (by decide)
    ip_dest := haddress (by decide)
    src_addr := (hrange (by decide) (by decide) (by decide)).map _
    dst_addr := (hrange (by decide) (by decide) (by decide)).map _
    ip_additional_header := by
      rw [Ipv4PacketLittleEndian.getIpAdditionalHeader, hlength]
      exact hrange (by decide) (by decide) (by decide)
    to_bytes := ⟨net, rfl, slice_prefix _ _ _ (by rw [hlength]; rfl)⟩ }

namespace Ipv4PacketLittleEndian

/-- The stored checksum is the complement of the sum over the cleared header. -/
theorem recalculateIpChecksum_eq {header : List UByte} (heven : header.length % 2 = 0)
    (hlength : 12 ≤ header.length) :
    recalculateIpChecksum ⟨header⟩ = .ok ⟨header.take 10 ++
      bytes16 (complement (sumBytes (clearedHeader header 10) 0)) ++ header.drop 12⟩ := by
  have hmem : 10 + 1 < header.length := hlength
  have hwords := sumWords_all (clearedHeader header 10)
    (by rw [clearedHeader_length hlength, heven]) 0
  rw [recalculateIpChecksum, write16_of_lt hmem, ok_bind, ← clearedHeader, hwords, ok_bind,
    clearedHeader, write16_again hmem]
  rfl

end Ipv4PacketLittleEndian

namespace Ipv4PacketView

/-- Over a plain header the view stores the checksum of the header alone. -/
theorem recalculateIpChecksum_plain {net : List UByte} (hlength : net.length = 20)
    (behind : List UByte) :
    recalculateIpChecksum ⟨net ++ behind, 0⟩ = .ok ⟨net.take 10 ++
      bytes16 (complement (sumBytes (clearedHeader net 10) 0)) ++ net.drop 12 ++ behind, 0⟩ := by
  have hmem : 10 + 1 < (net ++ behind).length := by
    rw [List.length_append]
    omega
  have hcleared := clearedHeader_length (show 10 + 2 ≤ net.length by omega)
  have hwords := sumWords_front (clearedHeader net 10) (by rw [hcleared, hlength]) behind 0
  rw [hcleared, hlength] at hwords
  have hadd (sum : UInt) : sumWords ((clearedHeader net 10 ++ behind).drop 20)
      (List.range (0 : ℤ).toNat) sum = .ok sum := rfl
  rw [recalculateIpChecksum, write16_of_lt hmem, ok_bind, ← clearedHeader,
    clearedHeader_append (by omega), hwords, ok_bind, hadd, ok_bind,
    ← clearedHeader_append (by omega), clearedHeader, write16_again hmem,
    List.take_append_of_le_length (by omega), List.drop_append_of_le_length (by omega)]
  simp only [List.append_assoc]
  rfl

end Ipv4PacketView

/-- Recalculating a checksum changes no count. -/
theorem Ipv4PacketView.recalculateIpChecksum_addHeaderSize {v v' : Ipv4PacketView}
    (h : v.recalculateIpChecksum = .ok v') : v'.addHeaderSize = v.addHeaderSize := by
  obtain ⟨_, -, h⟩ := bind_eq_ok_iff.mp h
  obtain ⟨_, -, h⟩ := bind_eq_ok_iff.mp h
  obtain ⟨_, -, h⟩ := bind_eq_ok_iff.mp h
  obtain ⟨_, -, h⟩ := bind_eq_ok_iff.mp h
  cases Except.ok.inj h
  rfl

/-- A view that ends with the declared length has counted no options. -/
theorem Ipv4FormsAgree.words_eq {net behind : List UByte} {p : Ipv4PacketLittleEndian}
    {v : Ipv4PacketView} (hnet : IsIpv4Layout net) (h : Ipv4FormsAgree net behind p v) :
    declaredWords net = 5 := by
  have hge := hnet.words_ge
  have hwords := hnet.length_eq
  obtain ⟨p', v', bytes, -, hv', -, hbytes, hlength, -⟩ := h.recalculated
  have hcount := Ipv4PacketView.recalculateIpChecksum_addHeaderSize hv'
  have hview := h.view_made
  rw [Ipv4PacketView.parsePacket, readAt_append_getD (by omega) 0, ok_bind] at hview
  cases Except.ok.inj hview
  have hsize := slice_length hbytes
  rw [hcount] at hsize
  rw [declaredWords] at *
  dsimp only at hsize
  omega

/-- Without options the classes agree. -/
theorem ipv4FormsAgree_plain {net : List UByte} (hnet : IsIpv4Layout net)
    (hwords : declaredWords net = 5) (behind : List UByte) :
    Ipv4FormsAgree net behind ⟨net⟩ ⟨net ++ behind, 0⟩ where
  object_made := hnet.parsePacket_object behind
  view_made := hnet.parsePacket_plain hwords behind
  getters := ipv4GettersAgree_plain (by rw [hnet.length_eq, hwords]) behind
  recalculated := by
    have hlength : net.length = 20 := by rw [hnet.length_eq, hwords]
    have hfront : (net.take 10).length = 10 := List.length_take_of_le (by omega)
    have hcleared := clearedHeader_length (show 10 + 2 ≤ net.length by omega)
    have hbytes : (net.take 10 ++ bytes16 (complement (sumBytes (clearedHeader net 10) 0)) ++
        net.drop 12).length = 20 := by
      simp only [List.length_append, hfront, bytes16_length, List.length_drop, hlength]
    refine ⟨_, _, _, Ipv4PacketLittleEndian.recalculateIpChecksum_eq (by omega) (by omega),
      Ipv4PacketView.recalculateIpChecksum_plain hlength behind, rfl,
      slice_prefix _ _ _ (by rw [hbytes]; rfl), ?_, ?_⟩
    · rw [hwords]
      exact hbytes
    · exact onesSum_complement (by rw [hfront]) (by rw [← clearedHeader, hcleared]; omega)

/-- The two classes agree on an IPv4 header exactly when it has no options. -/
theorem ipv4FormsAgree_iff_plain {net : List UByte} (hnet : IsIpv4Layout net)
    (behind : List UByte) :
    (∃ p v, Ipv4FormsAgree net behind p v) ↔ declaredWords net = 5 := by
  constructor
  · rintro ⟨p, v, h⟩
    exact h.words_eq hnet
  · intro hwords
    exact ⟨_, _, ipv4FormsAgree_plain hnet hwords behind⟩

/-- A header with a four-byte option: the copy has 24 bytes and the view 21. -/
theorem routedHeader_forms_disagree : IsIpv4Layout routedHeader ∧
    (Ipv4PacketLittleEndian.parsePacket routedHeader).map (·.getSize) = .ok 24 ∧
    (Ipv4PacketView.parsePacket routedHeader).map (·.getSize) = .ok 21 ∧
    ¬ ∃ p v, Ipv4FormsAgree routedHeader [] p v := by
  have hnet : IsIpv4Layout routedHeader := ⟨by decide, by decide⟩
  refine ⟨hnet, by decide, by decide, ?_⟩
  rintro ⟨p, v, h⟩
  exact absurd (h.words_eq hnet) (by decide)

/-- A plain header of a datagram, with its datagram behind it. -/
theorem ipv4FormsAgree_iff_plain_datagram :
    (∃ p v, Ipv4FormsAgree datagramHeader [0, 53, 4, 210, 0, 11, 0, 0, 1, 2, 3] p v) ↔
      declaredWords datagramHeader = 5 :=
  ipv4FormsAgree_iff_plain ⟨by decide, by decide⟩ _

end QVPN
