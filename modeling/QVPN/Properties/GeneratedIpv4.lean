import QVPN.Properties.Reinjection
import QVPN.Structures.Ipv4Getters

/-!
# Generated IPv4 headers

The generator writes every field of a header once, and the two header classes read it back. All
of them come back but the fragment offset: eleven bits are shifted out where it is written, where
eight lie in the second byte, and five are shifted in where it is read. Offsets below 256 are zero
in all that is shifted.
-/

namespace QVPN

open BigEndian Checksum Memory

/-- What the getters of a header report. -/
structure Ipv4Values where
  headerLength : UByte
  totalLength : ℕ
  df : UByte
  mf : UByte
  offset : UShort
  protocol : TransportProtocol
  srcAddr : NetAddr
  dstAddr : NetAddr
  source : List UByte
  dest : List UByte
  deriving DecidableEq, Repr

def Ipv4PacketLittleEndian.values (p : Ipv4PacketLittleEndian) : Except Fault Ipv4Values := do
  let headerLength ← p.getIpHeaderLength
  let totalLength ← p.getIpTotalLength
  let df ← p.getIpDfFlag
  let mf ← p.getIpMfFlag
  let offset ← p.getIpOffset
  let protocol ← p.getIpProtocol
  let srcAddr ← p.getSrcAddr
  let dstAddr ← p.getDstAddr
  let source ← p.getIpSource
  let dest ← p.getIpDest
  return ⟨headerLength, totalLength.toNat, df, mf, offset, protocol, srcAddr, dstAddr, source, dest⟩

def Ipv4PacketView.values (v : Ipv4PacketView) : Except Fault Ipv4Values := do
  let headerLength ← v.getIpHeaderLength
  let totalLength ← v.getIpTotalLength
  let df ← v.getIpDfFlag
  let mf ← v.getIpMfFlag
  let offset ← v.getIpOffset
  let protocol ← v.getIpProtocol
  let srcAddr ← v.getSrcAddr
  let dstAddr ← v.getDstAddr
  let source ← v.getIpSource
  let dest ← v.getIpDest
  return ⟨headerLength, totalLength.toNat, df, mf, offset, protocol, srcAddr, dstAddr, source, dest⟩

/-- Both classes report the same values of a header, and its checksum verifies. -/
structure CarriesValues (header : List UByte) (values : Ipv4Values) : Prop where
  object : ∃ p, Ipv4PacketLittleEndian.parsePacket header = .ok p ∧ p.values = .ok values
  view : ∃ v, Ipv4PacketView.parsePacket header = .ok v ∧ v.values = .ok values
  verifies : onesSum header 0 = 65535

/-- The flags and the upper part of the offset share a byte. -/
def fragmentByte (df mf : Bool) (offset : UShort) : UByte :=
  df.toUInt8 <<< 6 ||| mf.toUInt8 <<< 5 ||| ((offset >>> 11).toUInt8 &&& 0x1F)

/-- The fields of a generated header. -/
def generatedFields (id : UShort) (proto : TransportProtocol) (df mf : Bool) (offset : UShort) :
    Ipv4Fields :=
  ⟨0x45, 0, id, join (fragmentByte df mf offset) offset.toUInt8, 64, proto.val⟩

/-- A generated header has five words. -/
theorem generatedFields_words (id : UShort) (proto : TransportProtocol) (df mf : Bool)
    (offset : UShort) : ((generatedFields id proto df mf offset).first &&& 0xF).toNat = 5 :=
  congrArg UInt8.toNat (show (0x45 : UByte) &&& 0xF = 5 by rfl)

/-- The identification of a packet and the strategy behind it: only an unfragmented packet takes a
new identification, and only once the last one is not zero. -/
def Ipv4DefaultGenStrategy.taken (strategy : Ipv4DefaultGenStrategy) (mf : Bool) (offset : UShort) :
    UShort × Ipv4DefaultGenStrategy :=
  if mf = false ∧ offset = 0 ∧ strategy.getId ≠ 0 then strategy.getNextId
  else (strategy.getId, strategy)

/-- The generator stamps a header of its fields with the identification it takes. -/
theorem generateObjectBytes_taken (strategy : Ipv4DefaultGenStrategy) {src dst : NetAddr}
    {s d : List UByte} (hsrc : src.toIpv4 = .ok s) (hdst : dst.toIpv4 = .ok d)
    (proto : TransportProtocol) (length : UShort) (df mf : Bool) (offset : UShort) :
    Ipv4PacketLittleEndian.generateObjectBytes strategy src dst proto length df mf offset =
      .ok ((generatedFields (strategy.taken mf offset).1 proto df mf offset).stamped
        (UInt16.ofNat (length.toNat + 20)) s d, (strategy.taken mf offset).2) := by
  unfold Ipv4PacketLittleEndian.generateObjectBytes
  dsimp only
  rw [← Ipv4DefaultGenStrategy.taken]
  generalize strategy.taken mf offset = next
  have hs := NetAddr.toIpv4_length hsrc
  have hd := NetAddr.toIpv4_length hdst
  have hstamp := (generatedFields next.1 proto df mf offset).recalculateIpChecksum_header
    (UInt16.ofNat (length.toNat + 20)) 0 hs hd []
  have hform (total : UShort) : (generatedFields next.1 proto df mf offset).header total 0 s d ++ [] =
      [0x45, 0] ++ bytes16 total ++ bytes16 next.1 ++ [fragmentByte df mf offset, offset.toUInt8,
        64, proto.val, 0, 0] ++ s ++ d ++ [] := by
    have hzero : bytes16 0 = [0, 0] := rfl
    rw [Ipv4Fields.header, generatedFields, hzero]
    simp only [bytes16, hi_join, lo_join, List.append_assoc, List.cons_append, List.nil_append]
  have hwords : Ipv4DefaultGenStrategy.getHeaderLength.toNat +
      Ipv4DefaultGenStrategy.getAdditionalHeaders.length / 4 = 5 := rfl
  have hfirst : Ipv4DefaultGenStrategy.getVer.val <<< 4 ||| (UInt8.ofNat 5 &&& 0xF) = 0x45 := rfl
  have hview {bytes rest : List UByte} (h : bytes = 0x45 :: rest) :
      Ipv4PacketView.parsePacket bytes = .ok ⟨bytes, 0⟩ := by
    rw [h]
    rfl
  rw [hsrc, ok_bind, hdst, ok_bind, hwords, hfirst, ← fragmentByte]
  dsimp only [Ipv4DefaultGenStrategy.getQos, Ipv4DefaultGenStrategy.getTtl,
    Ipv4DefaultGenStrategy.getAdditionalHeaders]
  rw [← hform, show 5 * 4 = 20 from rfl, hview (show _ ++ [] = 0x45 :: _ from rfl), ok_bind,
    hstamp, ok_bind, List.append_nil]
  rfl

/-- Whatever the identification, the generator stamps a header of its fields. -/
theorem generateObjectBytes_stamped (strategy : Ipv4DefaultGenStrategy) {src dst : NetAddr}
    {s d : List UByte} (hsrc : src.toIpv4 = .ok s) (hdst : dst.toIpv4 = .ok d)
    (proto : TransportProtocol) (length : UShort) (df mf : Bool) (offset : UShort) :
    ∃ id strategy', Ipv4PacketLittleEndian.generateObjectBytes strategy src dst proto length df mf
      offset = .ok ((generatedFields id proto df mf offset).stamped
        (UInt16.ofNat (length.toNat + 20)) s d, strategy') :=
  ⟨_, _, generateObjectBytes_taken strategy hsrc hdst proto length df mf offset⟩

/-- The offset that is read from the two bytes of a fragment word. -/
def readOffset (fragment : UShort) : UShort :=
  (hi fragment &&& 0x1F).toUInt16 <<< 5 ||| (lo fragment).toUInt16

/-- The values of a header given by its fields. -/
theorem values_header (f : Ipv4Fields) (total sum : UShort) {src dst : List UByte}
    (hsrc : src.length = 4) (hdst : dst.length = 4) :
    Ipv4PacketLittleEndian.values ⟨f.header total sum src dst⟩ =
      .ok ⟨f.first &&& (0xF : UByte), total.toNat, hi f.fragment >>> 5 >>> 1 &&& (0x1 : UByte),
        hi f.fragment >>> 5 &&& (0x1 : UByte), readOffset f.fragment, ⟨f.protocol⟩, ⟨src⟩, ⟨dst⟩, src, dst⟩ := by
  match src, hsrc, dst, hdst with
  | [s0, s1, s2, s3], _, [d0, d1, d2, d3], _ =>
    have htotal : join (hi total) (lo total) = total := join_hi_lo total
    conv_rhs => rw [← htotal]
    rfl

/-- The flags come back from the byte they share with the offset, as do its five lowest bits. -/
theorem fragmentByte_read (df mf : Bool) (offset : UShort) :
    fragmentByte df mf offset >>> 5 >>> 1 &&& 0x1 = df.toUInt8 ∧
      fragmentByte df mf offset >>> 5 &&& 0x1 = mf.toUInt8 ∧
      fragmentByte df mf offset &&& (0x1F : UByte) = (offset >>> 11).toUInt8 &&& (0x1F : UByte) := by
  rw [fragmentByte]
  generalize (offset >>> 11).toUInt8 = b
  revert b
  cases df
  all_goals cases mf
  all_goals exact forall_byte (by decide +kernel)

/-- The offset read back is below 256 for all thirteen-bit offsets. -/
theorem readOffset_generated (df mf : Bool) {offset : UShort} (hoffset : offset.toNat < 8192) :
    readOffset (join (fragmentByte df mf offset) offset.toUInt8) = offset ↔ offset.toNat < 256 := by
  have hupper : ((offset >>> 11).toUInt8 &&& (0x1F : UByte)).toNat = offset.toNat / 2048 := by
    have hmask : offset.toNat / 2048 % 256 &&& 31 = offset.toNat / 2048 % 256 % 32 :=
      Nat.and_two_pow_sub_one_eq_mod _ 5
    rw [UInt8.toNat_and, UInt16.toNat_toUInt8, UInt16.toNat_shiftRight]
    change offset.toNat >>> 11 % 256 &&& 31 = _
    rw [Nat.shiftRight_eq_div_pow]
    change offset.toNat / 2048 % 256 &&& 31 = _
    omega
  have hread : (readOffset (join (fragmentByte df mf offset) offset.toUInt8)).toNat =
      offset.toNat / 2048 * 32 ||| offset.toNat % 256 := by
    rw [readOffset, hi_join, lo_join, (fragmentByte_read df mf offset).2.2, UInt16.toNat_or,
      UInt16.toNat_shiftLeft, UInt8.toNat_toUInt16, hupper, UInt8.toNat_toUInt16,
      UInt16.toNat_toUInt8, Nat.shiftLeft_eq]
    change offset.toNat / 2048 * 32 % 65536 ||| offset.toNat % 256 = _
    rw [Nat.mod_eq_of_lt (by omega)]
  rw [← UInt16.toNat_inj, hread]
  constructor
  · intro heq
    have hlt := Nat.or_lt_two_pow (show offset.toNat / 2048 * 32 < 2 ^ 8 by omega)
      (show offset.toNat % 256 < 2 ^ 8 by omega)
    omega
  · intro hlt
    rw [Nat.div_eq_of_lt (by omega), Nat.zero_mul, Nat.zero_or, Nat.mod_eq_of_lt hlt]

/-- The values that a generated header should carry. -/
def generatedValues (src dst : NetAddr) (proto : TransportProtocol) (length : UShort) (df mf : Bool)
    (offset : UShort) : Ipv4Values where
  headerLength := 5
  totalLength := length.toNat + 20
  df := df.toUInt8
  mf := mf.toUInt8
  offset := offset
  protocol := proto
  srcAddr := src
  dstAddr := dst
  source := src.ip
  dest := dst.ip

section Generated

variable (strategy : Ipv4DefaultGenStrategy) {src dst : NetAddr} (hsrc : src.ip.length = 4)
  (hdst : dst.ip.length = 4) (proto : TransportProtocol) {length : UShort} (df mf : Bool)
  (offset : UShort)
include hsrc hdst

/-- All values come back but the offset, for which the one read stands. -/
theorem generateObjectBytes_values (hlength : length.toNat ≤ 65515) :
    ∃ header strategy', Ipv4PacketLittleEndian.generateObjectBytes strategy src dst proto length df mf
        offset = .ok (header, strategy') ∧
      CarriesValues header { generatedValues src dst proto length df mf offset with
        offset := readOffset (join (fragmentByte df mf offset) offset.toUInt8) } := by
  obtain ⟨id, strategy', hgenerated⟩ := generateObjectBytes_stamped strategy
    (src.toIpv4_of_length hsrc) (dst.toIpv4_of_length hdst) proto length df mf offset
  refine ⟨_, strategy', hgenerated, ?_⟩
  generalize htotal : UInt16.ofNat (length.toNat + 20) = total
  have hnat : total.toNat = length.toNat + 20 := by
    rw [← htotal, UInt16.toNat_ofNat', Nat.mod_eq_of_lt (by omega)]
  obtain ⟨hdf, hmf, -⟩ := fragmentByte_read df mf offset
  have hwords := generatedFields_words id proto df mf offset
  have hlayout := (generatedFields id proto df mf offset).isIpv4Layout hwords total
    ((generatedFields id proto df mf offset).checksum total src.ip dst.ip) hsrc hdst
  have hobject := hlayout.parsePacket_object []
  have hview := hlayout.parsePacket_plain hwords []
  have hvalues := values_header (generatedFields id proto df mf offset) total
    ((generatedFields id proto df mf offset).checksum total src.ip dst.ip) hsrc hdst
  rw [List.append_nil] at hobject hview
  have hfive : (0x45 : UByte) &&& 0xF = 5 := rfl
  dsimp only [generatedFields] at hvalues
  rw [hi_join, hdf, hmf, hnat, hfive] at hvalues
  exact ⟨⟨_, hobject, hvalues⟩, ⟨_, hview, hvalues⟩,
    (generatedFields id proto df mf offset).stamped_verifies total hsrc hdst⟩

/-- A generated header carries the values that it was made from exactly when the fragment offset is
below 256. -/
theorem generateObjectBytes_roundTrip_iff (hlength : length.toNat ≤ 65515)
    (hoffset : offset.toNat < 8192) :
    (∃ header strategy', Ipv4PacketLittleEndian.generateObjectBytes strategy src dst proto length df
        mf offset = .ok (header, strategy') ∧
      CarriesValues header (generatedValues src dst proto length df mf offset)) ↔
        offset.toNat < 256 := by
  obtain ⟨header, strategy', hgenerated, hvalues⟩ :=
    generateObjectBytes_values strategy hsrc hdst proto df mf offset hlength
  rw [← readOffset_generated df mf hoffset]
  constructor
  · rintro ⟨header', _, hgenerated', hcarries⟩
    cases hgenerated.symm.trans hgenerated'
    obtain ⟨p, hp, hread⟩ := hvalues.object
    obtain ⟨p', hp', hread'⟩ := hcarries.object
    cases hp.symm.trans hp'
    exact congrArg Ipv4Values.offset (Except.ok.inj (hread.symm.trans hread'))
  · intro hsame
    rw [hsame] at hvalues
    exact ⟨header, strategy', hgenerated, hvalues⟩

end Generated

/-- The last fragment of a packet, at an offset of 255 units. -/
theorem generateObjectBytes_roundTrip_fragment :
    (∃ header strategy', Ipv4PacketLittleEndian.generateObjectBytes .default ⟨[10, 0, 0, 1]⟩
        ⟨[10, 0, 0, 2]⟩ .UDP 100 false true 255 = .ok (header, strategy') ∧
      CarriesValues header (generatedValues ⟨[10, 0, 0, 1]⟩ ⟨[10, 0, 0, 2]⟩ .UDP 100 false true
        255)) ↔ (255 : UShort).toNat < 256 :=
  generateObjectBytes_roundTrip_iff .default rfl rfl .UDP false true 255 (by decide) (by decide)

/-- A fragment at an offset of 256 units is read back at zero. -/
theorem generateObjectBytes_offset_lost :
    ∃ header strategy', Ipv4PacketLittleEndian.generateObjectBytes .default ⟨[10, 0, 0, 1]⟩
        ⟨[10, 0, 0, 2]⟩ .UDP 100 false true 256 = .ok (header, strategy') ∧
      Ipv4PacketLittleEndian.getIpOffset ⟨header⟩ = .ok 0 ∧
      ¬ CarriesValues header (generatedValues ⟨[10, 0, 0, 1]⟩ ⟨[10, 0, 0, 2]⟩ .UDP 100 false true
        256) := by
  obtain ⟨id, strategy', hgenerated⟩ := generateObjectBytes_stamped .default
    (NetAddr.toIpv4_of_length ⟨[10, 0, 0, 1]⟩ rfl) (NetAddr.toIpv4_of_length ⟨[10, 0, 0, 2]⟩ rfl)
    .UDP 100 false true 256
  have hzero : readOffset (join (fragmentByte false true 256) (256 : UShort).toUInt8) = 0 := by decide
  refine ⟨_, strategy', hgenerated, congrArg Except.ok hzero, ?_⟩
  intro hcarries
  exact absurd ((generateObjectBytes_roundTrip_iff .default rfl rfl .UDP false true 256
    (by decide) (by decide)).mp ⟨_, strategy', hgenerated, hcarries⟩) (by decide)

end QVPN
