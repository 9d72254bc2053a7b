import QVPN.Lib.Lens
import QVPN.Properties.HeaderTransparency
import QVPN.Properties.TcpForms
import QVPN.Structures.Ipv4Getters
import QVPN.Structures.PacketChanges

/-!
# The setters of fields that share bytes

A setter is judged by its getter, by the bits of other fields and by what a second set leaves of
a first one. The data offset is replaced and always lawful. The number of words is or-ed into the
same bits, the NS flag is or-ed into its bit and read back as SYN, and an address is copied with
its own size: each of them is lawful only for some values, which depend on what the header held.
Both classes are lawful for the same values.
-/

namespace QVPN

open BigEndian Memory Lens

/-- The masks of the NS flag and the flag byte. -/
def flagsMask (i : ℕ) : UByte := if i = 12 then 0x01 else if i = 13 then 0xFF else 0

/-- The mask of the four bytes of an address. -/
def addressMask (i j : ℕ) : UByte := if i ≤ j ∧ j < i + 4 then 0xFF else 0

/-- A setter of a header field, with an earlier and a later argument. -/
inductive HeaderSetting where
  | tcpFlags (earlier later : TcpFlagsObject)
  | tcpOffset (earlier later : UByte)
  | tcpLength (earlier later : UByte)
  | transportLength (earlier later : UShort)
  | srcAddr (earlier later : NetAddr)
  | dstAddr (earlier later : NetAddr)
  deriving DecidableEq, Repr

namespace HeaderSetting

/-- Nine bits of flags, an offset of a header, any length, an address of either family. -/
def InRange : HeaderSetting → Prop
  | .tcpFlags b a => b.flags < 512 ∧ a.flags < 512
  | .tcpOffset b a => (5 ≤ b ∧ b ≤ 15) ∧ 5 ≤ a ∧ a ≤ 15
  | .tcpLength _ _ => True
  | .transportLength _ _ => True
  | .srcAddr b a => (b.ip.length = 4 ∨ b.ip.length = 16) ∧ (a.ip.length = 4 ∨ a.ip.length = 16)
  | .dstAddr b a => (b.ip.length = 4 ∨ b.ip.length = 16) ∧ (a.ip.length = 4 ∨ a.ip.length = 16)

/-- The bits of the field in each byte of the header. -/
def mask : HeaderSetting → ℕ → UByte
  | .tcpFlags _ _ => flagsMask
  | .tcpOffset _ _ => byteMask 12 0xF0
  | .tcpLength _ _ => byteMask 12 0xF0
  | .transportLength _ _ => byteMask 12 0xF0
  | .srcAddr _ _ => addressMask 12
  | .dstAddr _ _ => addressMask 16

/-- The setter of the copying class is lawful on a header. -/
def LittleEndianLawful (setting : HeaderSetting) (header : List UByte) : Prop :=
  let tcp (p q : TcpPacketLittleEndian) := KeepsOutside setting.mask p.header q.header
  let ip (p q : Ipv4PacketLittleEndian) := KeepsOutside setting.mask p.header q.header
  match setting with
  | .tcpFlags b a => Lawful TcpPacketLittleEndian.getTcpFlags TcpPacketLittleEndian.setTcpFlags tcp
      ⟨header⟩ b a
  | .tcpOffset b a => Lawful TcpPacketLittleEndian.getTcpHeaderLength
      TcpPacketLittleEndian.setTcpOffset tcp ⟨header⟩ b a
  | .tcpLength b a => Lawful TcpPacketLittleEndian.getTcpHeaderLength
      TcpPacketLittleEndian.setTcpLength tcp ⟨header⟩ b a
  | .transportLength b a => Lawful TcpPacketLittleEndian.getTransportLength
      TcpPacketLittleEndian.setTransportLength tcp ⟨header⟩ b a
  | .srcAddr b a => Lawful Ipv4PacketLittleEndian.getSrcAddr Ipv4PacketLittleEndian.setSrcAddr ip
      ⟨header⟩ b a
  | .dstAddr b a => Lawful Ipv4PacketLittleEndian.getDstAddr Ipv4PacketLittleEndian.setDstAddr ip
      ⟨header⟩ b a

/-- The setter of the view is lawful on the memory at its header pointer. -/
def ViewLawful (setting : HeaderSetting) (mem : List UByte) (size : ℤ) : Prop :=
  let tcp (v w : TcpPacketView) :=
    w.tcpOptionsSize = v.tcpOptionsSize ∧ KeepsOutside setting.mask v.tcpHeader w.tcpHeader
  let ip (v w : Ipv4PacketView) :=
    w.addHeaderSize = v.addHeaderSize ∧ KeepsOutside setting.mask v.header w.header
  match setting with
  | .tcpFlags b a => Lawful TcpPacketView.getTcpFlags TcpPacketView.setTcpFlags tcp ⟨mem, size⟩ b a
  | .tcpOffset b a => Lawful TcpPacketView.getTcpHeaderLength TcpPacketView.setTcpOffset tcp
      ⟨mem, size⟩ b a
  | .tcpLength b a => Lawful TcpPacketView.getTcpHeaderLength TcpPacketView.setTcpLength tcp
      ⟨mem, size⟩ b a
  | .transportLength b a => Lawful TcpPacketView.getTransportLength
      TcpPacketView.setTransportLength tcp ⟨mem, size⟩ b a
  | .srcAddr b a => Lawful Ipv4PacketView.getSrcAddr Ipv4PacketView.setSrcAddr ip ⟨mem, size⟩ b a
  | .dstAddr b a => Lawful Ipv4PacketView.getDstAddr Ipv4PacketView.setDstAddr ip ⟨mem, size⟩ b a

/-- Both classes are lawful on a header, the view whatever options it was made with. -/
def IsLawful (setting : HeaderSetting) (header : List UByte) : Prop :=
  setting.LittleEndianLawful header ∧ ∀ size, setting.ViewLawful header size

/-- The flags that come back when NS is or-ed in and read as SYN. -/
def FlagsFit (header : List UByte) (f : TcpFlagsObject) : Prop :=
  f.flags < 256 ∧ (nsFlag header = 0 ∨ f.flags &&& 2 = 2)

/-- The words that fill a nibble with every bit that stands there. -/
def WordsFit (old words : UByte) : Prop := words ≤ 15 ∧ old ||| words = words

/-- The lengths in bytes whose words fit. -/
def BytesFit (old : UByte) (bytesLength : UShort) : Prop :=
  bytesLength % 4 = 0 ∧ bytesLength ≤ 60 ∧
    old ||| (bytesLength / 4).toUInt8 = (bytesLength / 4).toUInt8

/-- The arguments for which a setter is lawful on a header. -/
def Fits (setting : HeaderSetting) (header : List UByte) : Prop :=
  let old : UByte := header.getD 12 0 >>> 4
  match setting with
  | .tcpFlags b a => FlagsFit header b ∧ FlagsFit header a
  | .tcpOffset _ _ => True
  | .tcpLength b a => WordsFit old b ∧ WordsFit old a ∧ b ||| a = a
  | .transportLength b a => BytesFit old b ∧ BytesFit old a ∧
      (b / 4).toUInt8 ||| (a / 4).toUInt8 = (a / 4).toUInt8
  | .srcAddr b a => b.ip.length = 4 ∧ a.ip.length = 4
  | .dstAddr b a => b.ip.length = 4 ∧ a.ip.length = 4

instance (header : List UByte) (f : TcpFlagsObject) : Decidable (FlagsFit header f) :=
  inferInstanceAs (Decidable (_ ∧ _))

instance (old words : UByte) : Decidable (WordsFit old words) :=
  inferInstanceAs (Decidable (_ ∧ _))

instance (old : UByte) (bytesLength : UShort) : Decidable (BytesFit old bytesLength) :=
  inferInstanceAs (Decidable (_ ∧ _ ∧ _))

instance (header : List UByte) : (setting : HeaderSetting) → Decidable (setting.Fits header)
  | .tcpFlags _ _ => inferInstanceAs (Decidable (_ ∧ _))
  | .tcpOffset _ _ => inferInstanceAs (Decidable True)
  | .tcpLength _ _ => inferInstanceAs (Decidable (_ ∧ _ ∧ _))
  | .transportLength _ _ => inferInstanceAs (Decidable (_ ∧ _ ∧ _))
  | .srcAddr _ _ => inferInstanceAs (Decidable (_ ∧ _))
  | .dstAddr _ _ => inferInstanceAs (Decidable (_ ∧ _))

end HeaderSetting

/-- Both classes read the flags by one expression. -/
def TcpHeader.getFlags (header : List UByte) : Except Fault TcpFlagsObject := do
  let b ← readAt header 12
  let f ← readAt header 13
  return ⟨(b &&& 0x1).toUInt16 <<< 1 ||| f.toUInt16⟩

/-- What a class returns around the bytes it has written. -/
theorem bind_wrap {α β : Type} (x : Except Fault α) (wrap : α → β) :
    (x >>= fun a => pure (wrap a)) = x.map wrap := by
  cases x <;> rfl

section Flags

/-- Nine bits are a byte and one bit more. -/
theorem nineBits {f : UShort} (h : f < 512) :
    f = f.toUInt8.toUInt16 ∨ f = f.toUInt8.toUInt16 ||| 0x100 := by
  have hlt : f.toNat < 512 := h
  have hform : ∀ b : UByte, (b.toUInt16 ||| 0x100).toNat = b.toNat + 256 :=
    forall_byte (by decide +kernel)
  by_cases hlow : f.toNat < 256
  · left
    rw [← UInt16.toNat_inj, UInt8.toNat_toUInt16, UInt16.toNat_toUInt8]
    omega
  · right
    rw [← UInt16.toNat_inj, hform, UInt16.toNat_toUInt8]
    omega

/-- A word of flags comes back through a byte with a certain NS bit. -/
theorem flags_read_iff (b : UByte) {f : UShort} (hf : f < 512) :
    ((b ||| TcpFlagsObject.getNs ⟨f⟩) &&& 0x1).toUInt16 <<< 1 |||
        (TcpFlagsObject.getWithoutNs ⟨f⟩).toUInt16 = f ↔
      f < 256 ∧ (b &&& 0x1 = 0 ∨ f &&& 2 = 2) := by
  have hns := lowBit_cases b
  have hform := nineBits hf
  rw [or_and]
  clear hf
  generalize b &&& 0x1 = n at hns ⊢
  generalize f.toUInt8 = c at hform
  -- four cases of two bits, each of them checked on all flag bytes
  rcases hform with rfl | rfl <;> rcases hns with rfl | rfl
  all_goals
    revert c
    exact forall_byte (by decide +kernel)

/-- A byte of flags has no NS. -/
theorem getNs_of_byte {f : TcpFlagsObject} (h : f.flags < 256) : f.getNs = 0 := by
  have hlt : f.flags.toNat < 256 := h
  have hform : f.flags = f.flags.toUInt8.toUInt16 := by
    rw [← UInt16.toNat_inj, UInt8.toNat_toUInt16, UInt16.toNat_toUInt8]
    omega
  rw [TcpFlagsObject.getNs, hform]
  generalize f.flags.toUInt8 = c
  revert c
  exact forall_byte (by decide +kernel)

variable {xs : List UByte}

/-- Only NS and the flag byte are touched. -/
theorem TcpHeader.setFlags_keeps (f : TcpFlagsObject) :
    KeepsOutside flagsMask xs
      ((xs.set 12 (xs.getD 12 0 ||| f.getNs)).set 13 f.getWithoutNs) := by
  have hns : f.getNs &&& ~~~(0x1 : UByte) = 0 := by
    rcases f.getNs_cases with hns | hns
    · rw [hns]
      rfl
    · rw [hns]
      rfl
  have hall (x : UByte) : x &&& ~~~(0xFF : UByte) = 0 := UInt8.and_zero
  apply KeepsOutside.trans (KeepsOutside.set ?_) (KeepsOutside.set ?_)
  · change (_ ||| _) &&& ~~~(0x1 : UByte) = _ &&& ~~~(0x1 : UByte)
    rw [or_and, hns, UInt8.or_zero]
  · change _ &&& ~~~(0xFF : UByte) = _ &&& ~~~(0xFF : UByte)
    rw [hall, hall]

variable (h : 13 < xs.length)
include h

theorem TcpHeader.getFlags_eq :
    getFlags xs = .ok ⟨(xs.getD 12 0 &&& 0x1).toUInt16 <<< 1 ||| (xs.getD 13 0).toUInt16⟩ := by
  rw [getFlags, readAt_getD (by omega) 0, ok_bind, readAt_getD h 0]
  rfl

theorem TcpHeader.setFlags_eq (f : TcpFlagsObject) :
    setFlags xs f = .ok ((xs.set 12 (xs.getD 12 0 ||| f.getNs)).set 13 f.getWithoutNs) := by
  have hfirst : writeAt xs 12 (xs.getD 12 0 ||| f.getNs) =
      .ok (xs.set 12 (xs.getD 12 0 ||| f.getNs)) := if_pos (by omega)
  rw [setFlags, readAt_getD (by omega) 0, ok_bind, hfirst]
  exact if_pos (by rw [List.length_set]; omega)

/-- The bytes of the flags after they were set. -/
theorem TcpHeader.setFlags_getD (f : TcpFlagsObject) :
    ((xs.set 12 (xs.getD 12 0 ||| f.getNs)).set 13 f.getWithoutNs).getD 12 0 =
        xs.getD 12 0 ||| f.getNs ∧
      ((xs.set 12 (xs.getD 12 0 ||| f.getNs)).set 13 f.getWithoutNs).getD 13 0 =
        f.getWithoutNs := by
  constructor
  · rw [List.getD_eq_getElem?_getD, List.getElem?_set_ne (by decide),
      List.getElem?_set_self (by omega), Option.getD_some]
  · rw [List.getD_eq_getElem?_getD, List.getElem?_set_self (by rw [List.length_set]; omega),
      Option.getD_some]

/-- Flags come back exactly when they fit, and nothing else changes. -/
theorem TcpHeader.sets_flags_iff {f : TcpFlagsObject} (hf : f.flags < 512) :
    Sets getFlags setFlags (KeepsOutside flagsMask) xs f ↔ HeaderSetting.FlagsFit xs f := by
  have hread := flags_read_iff (xs.getD 12 0) hf
  have hat := setFlags_getD h f
  have hlength : ((xs.set 12 (xs.getD 12 0 ||| f.getNs)).set 13 f.getWithoutNs).length =
      xs.length := by
    rw [List.length_set, List.length_set]
  have hback := getFlags_eq (h.trans_eq hlength.symm)
  rw [hat.1, hat.2] at hback
  constructor
  · rintro ⟨ys, hys, hvalue, -⟩
    cases (setFlags_eq h f).symm.trans hys
    apply hread.mp
    exact congrArg TcpFlagsObject.flags (Except.ok.inj (hback.symm.trans hvalue))
  · intro hfit
    refine ⟨_, setFlags_eq h f, ?_, setFlags_keeps f⟩
    rw [hback, hread.mpr hfit]

/-- The setter of the flags is lawful for flags that fit. -/
theorem TcpHeader.lawful_flags_iff {b a : TcpFlagsObject} (hb : b.flags < 512)
    (ha : a.flags < 512) :
    Lawful getFlags setFlags (KeepsOutside flagsMask) xs b a ↔
      HeaderSetting.FlagsFit xs b ∧ HeaderSetting.FlagsFit xs a := by
  rw [← sets_flags_iff h hb, ← sets_flags_iff h ha]
  constructor
  · intro hlawful
    exact ⟨hlawful.sets_earlier, hlawful.sets_later⟩
  · rintro ⟨hearlier, hlater⟩
    refine ⟨hearlier, hlater, ?_⟩
    have hns : b.getNs = 0 := getNs_of_byte ((sets_flags_iff h hb).mp hearlier).1
    have hat := setFlags_getD h b
    have hlength : ((xs.set 12 (xs.getD 12 0 ||| b.getNs)).set 13 b.getWithoutNs).length =
        xs.length := by
      rw [List.length_set, List.length_set]
    rw [setFlags_eq h, ok_bind, setFlags_eq (h.trans_eq hlength.symm), hat.1, hns, UInt8.or_zero,
      setFlags_eq h]
    rw [List.set_comm _ _ (by decide : 13 ≠ 12), List.set_set, List.set_set]

end Flags

section Words

/-- The lower half of a byte is what is left of it between two shifts. -/
theorem shifted_twice (w : UByte) : w <<< 4 >>> 4 = w &&& 0xF := by
  revert w
  exact forall_byte (by decide +kernel)

theorem nibble_iff (w : UByte) : w &&& 0xF = w ↔ w ≤ 15 := by
  revert w
  exact forall_byte (by decide +kernel)

/-- A shifted byte has no bits outside the upper half. -/
theorem shifted_outside (w : UByte) : w <<< 4 &&& ~~~(0xF0 : UByte) = 0 := by
  revert w
  exact forall_byte (by decide +kernel)

/-- Words that are or-ed into the upper half come back exactly when they fit. -/
theorem words_read_iff (b w : UByte) :
    (b ||| w <<< 4) >>> 4 = w ↔ HeaderSetting.WordsFit (b >>> 4) w := by
  have hread : (b ||| w <<< 4) >>> 4 = b >>> 4 ||| w &&& 0xF := by
    rw [UInt8.shiftRight_or, shifted_twice]
  rw [hread]
  constructor
  · intro heq
    have hnibble : w &&& 0xF = w := by
      rw [← heq, or_and, highNibble_and, UInt8.and_assoc, UInt8.and_self]
    rw [hnibble] at heq
    exact ⟨(nibble_iff w).mp hnibble, heq⟩
  · rintro ⟨hle, heq⟩
    rw [(nibble_iff w).mpr hle, heq]

theorem words_keep (b w : UByte) :
    (b ||| w <<< 4) &&& ~~~(0xF0 : UByte) = b &&& ~~~(0xF0 : UByte) := by
  rw [or_and, shifted_outside, UInt8.or_zero]

/-- A second number of words hides the first one exactly when it has all its bits. -/
theorem words_override_iff {b w u : UByte} (hw : HeaderSetting.WordsFit (b >>> 4) w)
    (hu : HeaderSetting.WordsFit (b >>> 4) u) :
    b ||| w <<< 4 ||| u <<< 4 = b ||| u <<< 4 ↔ w ||| u = u := by
  constructor
  · intro heq
    have hhalf := congrArg (fun x : UByte => x >>> 4) heq
    rw [UInt8.shiftRight_or, (words_read_iff b w).mpr hw, (words_read_iff b u).mpr hu,
      shifted_twice, (nibble_iff u).mpr hu.1] at hhalf
    exact hhalf
  · intro heq
    rw [UInt8.or_assoc, ← UInt8.shiftLeft_or, heq]

/-- An offset replaces the upper half. -/
theorem offset_read {offset : UByte} (h : offset ≤ 15) (x : UByte) :
    (offset <<< 4 ||| (x &&& 0x0F)) >>> 4 = offset := by
  have hlow : ∀ x : UByte, (x &&& 0x0F) >>> 4 = 0 := forall_byte (by decide +kernel)
  rw [UInt8.shiftRight_or, shifted_twice, (nibble_iff offset).mpr h, hlow, UInt8.or_zero]

theorem offset_keeps (offset x : UByte) :
    (offset <<< 4 ||| (x &&& 0x0F)) &&& ~~~(0xF0 : UByte) = x &&& ~~~(0xF0 : UByte) := by
  rw [or_and, shifted_outside, UInt8.zero_or, UInt8.and_assoc]
  rfl

theorem offset_overrides (b a x : UByte) :
    a <<< 4 ||| (b <<< 4 ||| x &&& (0xF : UByte)) &&& (0xF : UByte) =
      a <<< 4 ||| x &&& (0xF : UByte) := by
  rw [or_and, shifted_low, low_low, UInt8.zero_or]

/-- A length that fits is a number of words that fits. -/
theorem wordsFit_of_bytes (old : UByte) (n : UShort) (h : HeaderSetting.BytesFit old n) :
    HeaderSetting.WordsFit old (n / 4).toUInt8 := by
  have hle : n.toNat ≤ 60 := h.2.1
  refine ⟨?_, h.2.2⟩
  rw [UInt8.le_iff_toNat_le, UInt16.toNat_toUInt8, UInt16.toNat_div]
  change n.toNat / 4 % 256 ≤ 15
  omega

/-- A length in bytes comes back through its words exactly when it fits. -/
theorem bytes_read_iff (b : UByte) (n : UShort) :
    ((b ||| (n / 4).toUInt8 <<< 4) >>> 4).toUInt16 * 4 = n ↔
      HeaderSetting.BytesFit (b >>> 4) n := by
  have hwords : (n / 4).toUInt8.toNat = n.toNat / 4 % 256 := by
    rw [UInt16.toNat_toUInt8, UInt16.toNat_div]
    rfl
  have htimes (w : UByte) : (w.toUInt16 * 4).toNat = w.toNat * 4 % 65536 := by
    rw [UInt16.toNat_mul, UInt8.toNat_toUInt16]
    rfl
  have hmod : (n % 4).toNat = n.toNat % 4 := UInt16.toNat_mod _ _
  constructor
  · intro heq
    have hnibble := highNibble_le (b ||| (n / 4).toUInt8 <<< 4)
    have hvalue := congrArg UInt16.toNat heq
    rw [htimes] at hvalue
    have hsame : (b ||| (n / 4).toUInt8 <<< 4) >>> 4 = (n / 4).toUInt8 := by
      rw [← UInt8.toNat_inj, hwords]
      omega
    refine ⟨?_, ?_, ((words_read_iff b _).mp hsame).2⟩
    · rw [← UInt16.toNat_inj, hmod]
      change n.toNat % 4 = 0
      omega
    · change n.toNat ≤ 60
      omega
  · intro hfit
    have hle : n.toNat ≤ 60 := hfit.2.1
    have hdvd := congrArg UInt16.toNat hfit.1
    rw [hmod] at hdvd
    change n.toNat % 4 = 0 at hdvd
    rw [(words_read_iff b _).mpr (wordsFit_of_bytes _ _ hfit), ← UInt16.toNat_inj, htimes, hwords]
    omega

variable {xs : List UByte} (h : 12 < xs.length)
include h

/-- The setter of the data offset is lawful for every nibble. -/
theorem TcpHeader.lawful_offset {b a : UByte} (hb : b ≤ 15) (ha : a ≤ 15) :
    Lawful (getByte 12 (· >>> 4)) TcpHeader.setOffset (KeepsOutside (byteMask 12 0xF0)) xs b a := by
  apply (lawful_byte_iff 0xF0 (· >>> 4) (fun offset x => offset <<< 4 ||| (x &&& 0x0F)) h b a).mpr
  exact ⟨⟨offset_read hb _, offset_keeps b _⟩, ⟨offset_read ha _, offset_keeps a _⟩,
    offset_overrides b a _⟩

/-- A setter that or-s words into the upper half is lawful for words that fit, of which the later
ones cover the earlier ones. -/
theorem TcpHeader.lawful_or_iff {α : Type} (read : UByte → α) (words : α → UByte)
    (Fit : UByte → α → Prop) (hfit : ∀ old a, Fit old a → HeaderSetting.WordsFit old (words a))
    (hread : ∀ (x : UByte) a, read (x ||| words a <<< 4) = a ↔ Fit (x >>> 4) a) (b a : α) :
    Lawful (getByte 12 read) (fun header a => orWords header (words a))
        (KeepsOutside (byteMask 12 0xF0)) xs b a ↔
      Fit (xs.getD 12 0 >>> 4) b ∧ Fit (xs.getD 12 0 >>> 4) a ∧ words b ||| words a = words a := by
  apply (lawful_byte_iff 0xF0 read (fun a x => x ||| words a <<< 4) h b a).trans
  rw [hread, hread]
  constructor
  · rintro ⟨⟨hb, -⟩, ⟨ha, -⟩, hover⟩
    exact ⟨hb, ha, (words_override_iff (hfit _ b hb) (hfit _ a ha)).mp hover⟩
  · rintro ⟨hb, ha, hover⟩
    exact ⟨⟨hb, words_keep _ _⟩, ⟨ha, words_keep _ _⟩,
      (words_override_iff (hfit _ b hb) (hfit _ a ha)).mpr hover⟩

end Words

section Address

/-- The four bytes of an address at a position. -/
def Ipv4Header.getAddr (i : ℕ) (header : List UByte) : Except Fault NetAddr := do
  let ip ← slice header i (i + 4)
  return ⟨ip⟩

/-- All bytes of an address are copied to a position. -/
def Ipv4Header.setAddr (i : ℕ) (header : List UByte) (addr : NetAddr) : Except Fault (List UByte) :=
  overwrite header i addr.ip

variable {xs : List UByte} {i : ℕ} (h : i + 4 ≤ xs.length)
include h

/-- An address comes back exactly when it has four bytes. -/
theorem Ipv4Header.sets_addr_iff (addr : NetAddr) :
    Sets (getAddr i) (setAddr i) (KeepsOutside (addressMask i)) xs addr ↔ addr.ip.length = 4 := by
  constructor
  · rintro ⟨ys, -, hvalue, -⟩
    rcases bind_eq_ok_iff.mp hvalue with ⟨ip, hip, hsame⟩
    cases Except.ok.inj hsame
    have hlength := slice_length hip
    dsimp only
    omega
  · intro hfour
    have hfits : i + addr.ip.length ≤ xs.length := by omega
    have hset : setAddr i xs addr =
        .ok (xs.take i ++ addr.ip ++ xs.drop (i + addr.ip.length)) := if_pos hfits
    have hfront : (xs.take i).length = i := List.length_take_of_le (by omega)
    refine ⟨_, hset, ?_, KeepsOutside.of_overwrite hset fun j hle hlt => if_pos ⟨hle, by omega⟩⟩
    rw [getAddr, slice_append _ _ _ _ _ (by rw [hfront]) (by rw [hfront, hfour]; rfl)]
    rfl

/-- The setter of an address is lawful for addresses of four bytes. -/
theorem Ipv4Header.lawful_addr_iff (b a : NetAddr) :
    Lawful (getAddr i) (setAddr i) (KeepsOutside (addressMask i)) xs b a ↔
      b.ip.length = 4 ∧ a.ip.length = 4 := by
  rw [← sets_addr_iff h b, ← sets_addr_iff h a]
  constructor
  · intro hlawful
    exact ⟨hlawful.sets_earlier, hlawful.sets_later⟩
  · rintro ⟨hearlier, hlater⟩
    have hb := (sets_addr_iff h b).mp hearlier
    have ha := (sets_addr_iff h a).mp hlater
    exact ⟨hearlier, hlater, overwrite_overwrite (by omega) (hb.trans ha.symm)⟩

end Address

namespace HeaderSetting

/-- What a setter does to the bytes of a header is lawful. -/
def BytesLawful (header : List UByte) : HeaderSetting → Prop
  | .tcpFlags b a => Lawful TcpHeader.getFlags TcpHeader.setFlags (KeepsOutside flagsMask)
      header b a
  | .tcpOffset b a => Lawful (getByte 12 (· >>> 4)) TcpHeader.setOffset
      (KeepsOutside (byteMask 12 0xF0)) header b a
  | .tcpLength b a => Lawful (getByte 12 (· >>> 4)) TcpHeader.orWords
      (KeepsOutside (byteMask 12 0xF0)) header b a
  | .transportLength b a => Lawful (getByte 12 fun x => (x >>> 4).toUInt16 * 4)
      (fun header n => TcpHeader.orWords header (n / 4).toUInt8) (KeepsOutside (byteMask 12 0xF0))
      header b a
  | .srcAddr b a => Lawful (Ipv4Header.getAddr 12) (Ipv4Header.setAddr 12)
      (KeepsOutside (addressMask 12)) header b a
  | .dstAddr b a => Lawful (Ipv4Header.getAddr 16) (Ipv4Header.setAddr 16)
      (KeepsOutside (addressMask 16)) header b a

/-- On the bytes a setter is lawful exactly for the arguments that fit. -/
theorem bytesLawful_iff {header : List UByte} (hsize : 20 ≤ header.length) (setting : HeaderSetting)
    (hrange : setting.InRange) : setting.BytesLawful header ↔ setting.Fits header := by
  cases setting with
  | tcpFlags b a => exact TcpHeader.lawful_flags_iff (by omega) hrange.1 hrange.2
  | tcpOffset b a =>
    exact iff_true_intro (TcpHeader.lawful_offset (by omega) hrange.1.2 hrange.2.2)
  | tcpLength b a =>
    exact TcpHeader.lawful_or_iff (by omega) (· >>> 4) id WordsFit (fun _ _ hfit => hfit)
      words_read_iff b a
  | transportLength b a =>
    exact TcpHeader.lawful_or_iff (by omega) (fun x => (x >>> 4).toUInt16 * 4)
      (fun n => (n / 4).toUInt8) BytesFit wordsFit_of_bytes bytes_read_iff b a
  | srcAddr b a => exact Ipv4Header.lawful_addr_iff (show 12 + 4 ≤ header.length by omega) b a
  | dstAddr b a => exact Ipv4Header.lawful_addr_iff (show 16 + 4 ≤ header.length by omega) b a

/-- The copying class wraps the bytes. -/
theorem littleEndianLawful_iff (header : List UByte) (setting : HeaderSetting) :
    setting.LittleEndianLawful header ↔ setting.BytesLawful header := by
  have htcp : Function.Injective TcpPacketLittleEndian.mk := fun _ _ => TcpPacketLittleEndian.mk.inj
  have hip : Function.Injective Ipv4PacketLittleEndian.mk :=
    fun _ _ => Ipv4PacketLittleEndian.mk.inj
  cases setting with
  | tcpFlags | tcpOffset | tcpLength | transportLength =>
    exact lawful_wrap htcp (fun _ => rfl) (fun _ _ => bind_wrap _ _) (fun _ _ => Iff.rfl) header _ _
  | srcAddr | dstAddr =>
    exact lawful_wrap hip (fun _ => rfl) (fun _ _ => bind_wrap _ _) (fun _ _ => Iff.rfl) header _ _

/-- The view wraps the memory, beside a number of options that no setter changes. -/
theorem viewLawful_iff (mem : List UByte) (size : ℤ) (setting : HeaderSetting) :
    setting.ViewLawful mem size ↔ setting.BytesLawful mem := by
  have htcp : Function.Injective fun t => TcpPacketView.mk t size :=
    fun _ _ heq => (TcpPacketView.mk.inj heq).1
  have hip : Function.Injective fun t => Ipv4PacketView.mk t size :=
    fun _ _ heq => (Ipv4PacketView.mk.inj heq).1
  have hread (t : List UByte) : (TcpPacketView.mk t size).getTransportLength =
      getByte 12 (fun x => (x >>> 4).toUInt16 * 4) t := by
    rw [TcpPacketView.getTransportLength, TcpPacketView.getTcpHeaderLength, bind_assoc]
    rfl
  have hlength (t : List UByte) (n : UShort) : TcpPacketView.setTransportLength ⟨t, size⟩ n =
      (TcpHeader.orWords t (n / 4).toUInt8).map fun t => TcpPacketView.mk t size := by
    have hshift : ((n / 4) <<< 4).toUInt8 = (n / 4).toUInt8 <<< 4 :=
      UInt16.toUInt8_shiftLeft _ _ (by decide)
    rw [TcpHeader.orWords, ← hshift, ← bind_wrap, bind_assoc]
    rfl
  cases setting with
  | tcpFlags | tcpOffset | tcpLength =>
    exact lawful_wrap htcp (fun _ => rfl) (fun _ _ => bind_wrap _ _) (fun _ _ => and_iff_right rfl)
      mem _ _
  | transportLength =>
    exact lawful_wrap htcp hread hlength (fun _ _ => and_iff_right rfl) mem _ _
  | srcAddr | dstAddr =>
    exact lawful_wrap hip (fun _ => rfl) (fun _ _ => bind_wrap _ _) (fun _ _ => and_iff_right rfl)
      mem _ _

/-- The setters of both classes are lawful on a header exactly for the arguments that fit. -/
theorem isLawful_iff (header : List UByte) (hsize : 20 ≤ header.length) (setting : HeaderSetting)
    (hrange : setting.InRange) : setting.IsLawful header ↔ setting.Fits header := by
  rw [← bytesLawful_iff hsize setting hrange, IsLawful, littleEndianLawful_iff]
  constructor
  · intro hlawful
    exact hlawful.1
  · intro hlawful
    exact ⟨hlawful, fun size => (viewLawful_iff header size setting).mpr hlawful⟩

/-- A header of five words. -/
def fiveWords : List UByte := [0, 80, 1, 187, 0, 0, 0, 1, 0, 0, 0, 2, 0x50, 0x10, 16, 0, 0, 0, 0, 0]

/-- Words that have all bits of those that stand there replace them. -/
theorem isLawful_iff_widening : (HeaderSetting.transportLength 20 28).IsLawful fiveWords :=
  (isLawful_iff fiveWords (by decide) (.transportLength 20 28) trivial).mpr (by decide)

/-- Six words over five read as seven, the NS flag reads as SYN, and an IPv6 address is copied
past the four bytes of the field. -/
theorem setters_not_lawful :
    ¬(HeaderSetting.tcpLength 6 6).IsLawful fiveWords ∧
      ¬(HeaderSetting.transportLength 24 24).IsLawful fiveWords ∧
      ¬(HeaderSetting.tcpFlags ⟨0x100⟩ ⟨0x100⟩).IsLawful fiveWords ∧
      ¬(HeaderSetting.srcAddr .default .default).IsLawful fiveWords ∧
      ¬(HeaderSetting.dstAddr .default .default).IsLawful fiveWords := by
  have hfits {setting : HeaderSetting} (hlawful : setting.IsLawful fiveWords)
      (hrange : setting.InRange) : setting.Fits fiveWords :=
    (bytesLawful_iff (by decide) setting hrange).mp
      ((littleEndianLawful_iff fiveWords setting).mp hlawful.1)
  refine ⟨fun h => ?_, fun h => ?_, fun h => ?_, fun h => ?_, fun h => ?_⟩
  · exact absurd (hfits h trivial) (by decide)
  · exact absurd (hfits h trivial) (by decide)
  · exact absurd (hfits h ⟨by decide, by decide⟩) (by decide)
  · exact absurd (hfits h ⟨.inr rfl, .inr rfl⟩) (by decide)
  · exact absurd (hfits h ⟨.inr rfl, .inr rfl⟩) (by decide)

end HeaderSetting

end QVPN
