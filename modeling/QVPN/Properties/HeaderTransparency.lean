import QVPN.Structures.Tcp

/-!
# TCP headers through the tunnel scheme

A header is turned into scheme bytes on one side of the tunnel and regenerated from them on
the other. The composition is computed once, for every header, as an explicit byte list: the
fields and the options survive, and the flag byte absorbs the NS flag as if it were SYN. The
regenerated header is therefore the original with a zero checksum exactly when NS is clear.
-/

namespace QVPN

open BigEndian Memory

/-- The data offset a header declares, in 32-bit words. -/
def declaredOffset (h : List UByte) : ℕ := (h.getD 12 0 >>> 4).toNat

/-- The NS flag is the lowest bit of the byte that also holds the data offset. -/
def nsFlag (h : List UByte) : UByte := h.getD 12 0 &&& 0x1

/-- A complete header: its options fill the declared offset and its reserved bits are zero. -/
structure IsTcpHeader (h : List UByte) : Prop where
  offset_ge : 5 ≤ declaredOffset h
  length_eq : h.length = 4 * declaredOffset h
  reserved : h.getD 12 0 &&& 0x0E = 0

/-- Build the scheme of a header, read the scheme back and regenerate the header. -/
def headerThroughScheme (h : List UByte) : Except Fault (List UByte) := do
  let view ← TcpPacketView.parsePacket h
  let bytes ← QTunnelTCPViewScheme.generateObjectBytes view
  let scheme := QTunnelTCPViewScheme.ofBytes bytes
  let srcPort ← view.getTcpSrcPort
  let dstPort ← view.getTcpDstPort
  let seq ← scheme.getSeq
  let ack ← scheme.getAck
  let offset ← scheme.getOffset
  let flags ← scheme.getFlags
  let window ← scheme.getWindow
  let urgent ← scheme.getUrgentPointer
  let options ← scheme.getOptions
  return TcpPacketLittleEndian.generateObjectBytes srcPort dstPort seq ack offset flags window
    urgent options

/-- The header with its two checksum bytes set to zero. -/
def zeroChecksum (h : List UByte) : List UByte := h.take 16 ++ [0, 0] ++ h.drop 18

/-- The two-byte prefix of the scheme counts the bytes behind it. -/
def PrefixCountsScheme (h : List UByte) : Prop :=
  ∃ view bytes n, TcpPacketView.parsePacket h = .ok view ∧
    QTunnelTCPViewScheme.generateObjectBytes view = .ok bytes ∧
    read16 bytes 0 = .ok n ∧ n.toNat + 2 = bytes.length

/-- A header passes the tunnel unchanged up to its checksum, with an exact scheme prefix. -/
def TransparentHeader (h : List UByte) : Prop :=
  headerThroughScheme h = .ok (zeroChecksum h) ∧ PrefixCountsScheme h

/-- With NS clear, the flag word read from a view is the flag byte. -/
private theorem flags_of_ns_clear (f : UByte) :
    TcpFlagsObject.getNs ⟨(0 : UByte).toUInt16 <<< 1 ||| f.toUInt16⟩ = 0 ∧
      TcpFlagsObject.getWithoutNs ⟨(0 : UByte).toUInt16 <<< 1 ||| f.toUInt16⟩ = f := by
  revert f
  exact forall_byte (by decide +kernel)

/-- With NS set, the flag word read from a view has SYN set instead. -/
private theorem flags_of_ns_set (f : UByte) :
    TcpFlagsObject.getNs ⟨(1 : UByte).toUInt16 <<< 1 ||| f.toUInt16⟩ = 0 ∧
      TcpFlagsObject.getWithoutNs ⟨(1 : UByte).toUInt16 <<< 1 ||| f.toUInt16⟩ = f ||| 0x2 := by
  revert f
  exact forall_byte (by decide +kernel)

/-- The scheme stores the low flag byte as it is. -/
theorem flags_of_scheme (f : UByte) :
    TcpFlagsObject.getNs ⟨join 0 f⟩ = 0 ∧ TcpFlagsObject.getWithoutNs ⟨join 0 f⟩ = f := by
  revert f
  exact forall_byte (by decide +kernel)

/-- Without reserved bits and NS, the offset nibble determines its byte. -/
private theorem offsetByte_of_ns_clear (b : UByte) (hr : b &&& 0x0E = 0) (hns : b &&& 0x1 = 0) :
    (b >>> 4) <<< 4 ||| (0 &&& 0x1) = b := by
  revert b
  exact forall_byte (by decide +kernel)

/-- A byte with NS set is not made from an offset nibble alone. -/
private theorem offsetByte_of_ns_set (b : UByte) (hns : b &&& 0x1 = 1) :
    (b >>> 4) <<< 4 ||| (0 &&& 0x1) ≠ b := by
  revert b
  exact forall_byte (by decide +kernel)

/-- The flag byte the tunnel delivers for the two flag bytes of a header. -/
def tunnelledFlags (b f : UByte) : UByte :=
  TcpFlagsObject.getWithoutNs ⟨(b &&& 0x1).toUInt16 <<< 1 ||| f.toUInt16⟩

/-- The view never finds NS in the flag word it builds. -/
theorem viewFlags_ns (b f : UByte) :
    TcpFlagsObject.getNs ⟨(b &&& 0x1).toUInt16 <<< 1 ||| f.toUInt16⟩ = 0 := by
  rcases lowBit_cases b with h | h
  · rw [h, (flags_of_ns_clear f).1]
  · rw [h, (flags_of_ns_set f).1]

/-- With NS clear the flag byte is delivered as it was. -/
theorem tunnelledFlags_of_ns_clear {b : UByte} (hns : b &&& 0x1 = 0) (f : UByte) :
    tunnelledFlags b f = f := by
  rw [tunnelledFlags, hns, (flags_of_ns_clear f).2]

/-- With NS set the flag byte is delivered with SYN set. -/
theorem tunnelledFlags_of_ns_set {b : UByte} (hns : b &&& 0x1 = 1) (f : UByte) :
    tunnelledFlags b f = f ||| 0x2 := by
  rw [tunnelledFlags, hns, (flags_of_ns_set f).2]

/-- Twenty bytes, one by one. -/
theorem exists_twentyBytes {fixed : List UByte} (h : fixed.length = 20) :
    ∃ b0 b1 b2 b3 b4 b5 b6 b7 b8 b9 b10 b11 b12 b13 b14 b15 b16 b17 b18 b19 : UByte,
      fixed = [b0, b1, b2, b3, b4, b5, b6, b7, b8, b9, b10, b11, b12, b13, b14, b15, b16, b17, b18,
        b19] := by
  match fixed, h with
  | [b0, b1, b2, b3, b4, b5, b6, b7, b8, b9, b10, b11, b12, b13, b14, b15, b16, b17, b18, b19],
    _ => exact ⟨b0, b1, b2, b3, b4, b5, b6, b7, b8, b9, b10, b11, b12, b13, b14, b15, b16, b17, b18,
        b19, rfl⟩

/-- The scheme of a fixed header and its options. -/
def schemeOf (fixed options : List UByte) : List UByte :=
  bytes16 (15 + UInt16.ofNat options.length) ++ (fixed.drop 4).take 8 ++
    [0, tunnelledFlags (fixed.getD 12 0) (fixed.getD 13 0), fixed.getD 12 0 >>> 4] ++
    (fixed.drop 14).take 2 ++ (fixed.drop 18).take 2 ++ options

/-- A view makes the scheme of the options that it has behind the fixed header. -/
theorem generateObjectBytes_fixed {fixed : List UByte} (h : fixed.length = 20)
    (rest : List UByte) (size : ℤ) :
    QTunnelTCPViewScheme.generateObjectBytes ⟨fixed ++ rest, size⟩ =
      (slice rest 0 size).map (schemeOf fixed) := by
  have hoptions : slice (fixed ++ rest) 20 (20 + size) = slice rest 0 size :=
    slice_behind _ _ (by rw [h]; rfl) (by rw [h]; rfl)
  obtain ⟨b0, b1, b2, b3, b4, b5, b6, b7, b8, b9, b10, b11, b12, b13, b14, b15, b16, b17, b18, b19,
    rfl⟩ := exists_twentyBytes h
  simp only [QTunnelTCPViewScheme.generateObjectBytes, TcpPacketView.getTcpOptions, hoptions,
    TcpPacketView.getTcpSeqNumber, TcpPacketView.getTcpAckNumber, TcpPacketView.getTcpFlags,
    TcpPacketView.getTcpHeaderLength, TcpPacketView.getTcpWindowSize,
    TcpPacketView.getTcpUrgentPointer, read32, read16]
  simp only [List.cons_append, readAt_cons_succ, readAt_cons_zero, ok_bind, pure_bind,
    bytes32_join32, viewFlags_ns, bytes16, hi_join, lo_join, List.nil_append]
  cases slice rest 0 size <;> rfl

/-- The first twenty bytes of a complete header, one by one. -/
theorem IsTcpHeader.exists_bytes {h : List UByte} (hh : IsTcpHeader h) :
    ∃ (b0 b1 b2 b3 b4 b5 b6 b7 b8 b9 b10 b11 b12 b13 b14 b15 b16 b17 b18 b19 : UByte)
      (options : List UByte),
      h = [b0, b1, b2, b3, b4, b5, b6, b7, b8, b9, b10, b11, b12, b13, b14, b15, b16, b17, b18,
        b19] ++ options ∧ 5 ≤ (b12 >>> 4).toNat ∧
        options.length = 4 * ((b12 >>> 4).toNat - 5) ∧ b12 &&& 0x0E = 0 := by
  have hlen : (h.take 20).length = 20 := by
    have := hh.offset_ge
    have := hh.length_eq
    simp only [List.length_take]
    omega
  have hsplit := List.take_append_drop 20 h
  obtain ⟨b0, b1, b2, b3, b4, b5, b6, b7, b8, b9, b10, b11, b12, b13, b14, b15, b16, b17, b18, b19,
    hfixed⟩ := exists_twentyBytes hlen
  rw [hfixed] at hsplit
  have hb : h.getD 12 0 = b12 := by rw [← hsplit]; rfl
  refine ⟨b0, b1, b2, b3, b4, b5, b6, b7, b8, b9, b10, b11, b12, b13, b14, b15, b16, b17, b18,
    b19, h.drop 20, hsplit.symm, ?_, ?_, ?_⟩
  · have hge := hh.offset_ge
    rwa [declaredOffset, hb] at hge
  · have hge := hh.offset_ge
    have heq := hh.length_eq
    rw [declaredOffset, hb] at hge heq
    rw [List.length_drop, heq]
    omega
  · have hr := hh.reserved
    rwa [hb] at hr

section Computed

variable {b0 b1 b2 b3 b4 b5 b6 b7 b8 b9 b10 b11 b12 b13 b14 b15 b16 b17 b18 b19 : UByte}
  {options : List UByte}

/-- The view of a header given by its bytes. -/
private theorem parsePacket_bytes :
    TcpPacketView.parsePacket ([b0, b1, b2, b3, b4, b5, b6, b7, b8, b9, b10, b11, b12, b13, b14,
      b15, b16, b17, b18, b19] ++ options) =
      .ok ⟨[b0, b1, b2, b3, b4, b5, b6, b7, b8, b9, b10, b11, b12, b13, b14, b15, b16, b17, b18,
        b19] ++ options, (((b12 >>> 4).toNat : ℤ) - 5) * 4⟩ := rfl

/-- The scheme bytes of a header given by its bytes. -/
private theorem generateObjectBytes_bytes {size : ℤ} (hsize : size = options.length) :
    QTunnelTCPViewScheme.generateObjectBytes ⟨[b0, b1, b2, b3, b4, b5, b6, b7, b8, b9, b10, b11,
      b12, b13, b14, b15, b16, b17, b18, b19] ++ options, size⟩ =
      .ok (bytes16 (15 + UInt16.ofNat options.length) ++ [b4, b5, b6, b7, b8, b9, b10, b11, 0,
        tunnelledFlags b12 b13, b12 >>> 4, b14, b15, b18, b19] ++ options) := by
  rw [generateObjectBytes_fixed rfl, slice_all _ _ hsize]
  rfl

/-- Regenerating a header from its own scheme, byte by byte. -/
private theorem headerThroughScheme_bytes (hge : 5 ≤ (b12 >>> 4).toNat)
    (hopt : options.length = 4 * ((b12 >>> 4).toNat - 5)) :
    headerThroughScheme ([b0, b1, b2, b3, b4, b5, b6, b7, b8, b9, b10, b11, b12, b13, b14, b15, b16,
      b17, b18, b19] ++ options) =
      .ok ([b0, b1, b2, b3, b4, b5, b6, b7, b8, b9, b10, b11, (b12 >>> 4) <<< 4 ||| (0 &&& 0x1),
        tunnelledFlags b12 b13, b14, b15, 0, 0, b18, b19] ++ options) := by
  have hnib : (b12 >>> 4).toNat ≤ 15 := highNibble_le b12
  rw [headerThroughScheme, parsePacket_bytes, ok_bind, generateObjectBytes_bytes (by omega), ok_bind]
  generalize hscheme : bytes16 (15 + UInt16.ofNat options.length) ++ [b4, b5, b6, b7, b8, b9, b10,
    b11, 0, tunnelledFlags b12 b13, b12 >>> 4, b14, b15, b18, b19] ++ options = bytes
  have hlen : bytes.length = 17 + options.length := by
    rw [← hscheme]
    simp [bytes16]
    omega
  have hoptions : QTunnelTCPViewScheme.getOptions (.ofBytes bytes) = .ok options := by
    have hword : (UInt16.ofNat bytes.length).toNat = 17 + options.length := by
      simp [hlen]
      omega
    simp only [QTunnelTCPViewScheme.getOptions, QTunnelTCPViewScheme.ofBytes, hword]
    rw [← hscheme]
    refine slice_suffix _ _ _ _ ?_ (by simp [bytes16])
    simp only [List.length_append, bytes16_length, List.length_cons, List.length_nil]
    split <;> omega
  dsimp only
  rw [hoptions, ← hscheme]
  simp only [QTunnelTCPViewScheme.ofBytes, TcpPacketView.getTcpSrcPort, TcpPacketView.getTcpDstPort,
    QTunnelTCPViewScheme.getSeq, QTunnelTCPViewScheme.getAck, QTunnelTCPViewScheme.getFlags,
    QTunnelTCPViewScheme.getOffset, QTunnelTCPViewScheme.getWindow,
    QTunnelTCPViewScheme.getUrgentPointer, read32, read16]
  simp only [List.cons_append, readAt_cons_succ, readAt_cons_zero, ok_bind, pure_bind, bytes16,
    List.nil_append, TcpPacketLittleEndian.generateObjectBytes, bytes32_join32, hi_join, lo_join,
    (flags_of_scheme _).1, (flags_of_scheme _).2]
  rfl

end Computed

/-- The scheme prefix is exact for every complete header, whatever its flags. -/
theorem prefixCountsScheme_of_isTcpHeader {h : List UByte} (hh : IsTcpHeader h) :
    PrefixCountsScheme h := by
  obtain ⟨b0, b1, b2, b3, b4, b5, b6, b7, b8, b9, b10, b11, b12, b13, b14, b15, b16, b17, b18, b19,
    options, rfl, hge, hopt, -⟩ := hh.exists_bytes
  have hnib : (b12 >>> 4).toNat ≤ 15 := highNibble_le b12
  refine ⟨_, _, _, parsePacket_bytes, generateObjectBytes_bytes (by omega), rfl, ?_⟩
  simp only [bytes16, join_hi_lo, List.length_append, List.length_cons, List.length_nil]
  rw [UInt16.toNat_add]
  simp
  omega

/-- A complete header passes the tunnel transparently exactly when its NS flag is clear. -/
theorem transparentHeader_iff_ns_clear (h : List UByte) (hh : IsTcpHeader h) :
    TransparentHeader h ↔ nsFlag h = 0 := by
  have hprefix := prefixCountsScheme_of_isTcpHeader hh
  obtain ⟨b0, b1, b2, b3, b4, b5, b6, b7, b8, b9, b10, b11, b12, b13, b14, b15, b16, b17, b18, b19,
    options, rfl, hge, hopt, hreserved⟩ := hh.exists_bytes
  have hflag : nsFlag ([b0, b1, b2, b3, b4, b5, b6, b7, b8, b9, b10, b11, b12, b13, b14, b15, b16,
      b17, b18, b19] ++ options) = b12 &&& 0x1 := rfl
  rw [TransparentHeader, and_iff_left hprefix, headerThroughScheme_bytes hge hopt, hflag]
  constructor
  · intro heq
    rcases lowBit_cases b12 with hns | hns
    · exact hns
    · have hbyte : (b12 >>> 4) <<< 4 ||| (0 &&& 0x1) = b12 := by
        simp only [Except.ok.injEq] at heq
        exact congrArg (fun xs => xs.getD 12 0) heq
      exact absurd hbyte (offsetByte_of_ns_set b12 hns)
  · intro hns
    rw [offsetByte_of_ns_clear b12 hreserved hns, tunnelledFlags_of_ns_clear hns]
    rfl

/-- A header with NS set and every other flag clear, as a sender using ECN nonces emits it. -/
def nsHeader : List UByte := [0, 80, 4, 210, 0, 0, 0, 1, 0, 0, 0, 2, 0x51, 0, 1, 0, 0, 0, 0, 0]

/-- The header with NS set is complete, and the tunnel changes it. -/
theorem nsHeader_not_transparent : IsTcpHeader nsHeader ∧ ¬ TransparentHeader nsHeader := by
  refine ⟨⟨by decide, by decide, by decide⟩, ?_⟩
  rintro ⟨h, -⟩
  revert h
  decide

/-- A header with options, ACK and PSH, but without NS. -/
def optionHeader : List UByte :=
  [0, 80, 4, 210, 0, 0, 0, 1, 0, 0, 0, 2, 0x60, 0x18, 1, 0, 7, 7, 0, 0, 2, 4, 5, 180]

/-- The header without NS passes. -/
theorem optionHeader_transparent : IsTcpHeader optionHeader ∧
    (TransparentHeader optionHeader ↔ nsFlag optionHeader = 0) ∧ nsFlag optionHeader = 0 :=
  have hh : IsTcpHeader optionHeader := ⟨by decide, by decide, by decide⟩
  ⟨hh, transparentHeader_iff_ns_clear optionHeader hh, by decide⟩

end QVPN
