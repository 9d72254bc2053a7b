import QVPN.Structures.Types

/-!
# TCP headers and their tunnel scheme

The wire header seen through a view, the tunnel scheme that carries its fields, and the
header regenerated from a scheme. A view holds the memory from its first byte onwards,
because the code reads through a pointer: what lies behind the header is readable too.

The option walk is the loop that prints the options. Its text is not modelled beyond the
kinds and steps it consists of; whether the loop ends and what it reads is.
-/

namespace QVPN

open BigEndian Memory

/-- A TCP header in place: the memory from its first byte and the declared option bytes. -/
structure TcpPacketView where
  tcpHeader : List UByte
  tcpOptionsSize : ℤ
  deriving DecidableEq, Repr

namespace TcpPacketView

/-- Only the data offset is read when the view is made. -/
def parsePacket (mem : List UByte) : Except Fault TcpPacketView := do
  let b ← readAt mem 12
  return ⟨mem, (((b >>> 4).toNat : ℤ) - 5) * 4⟩

def getSize (v : TcpPacketView) : UShort := UInt16.ofInt (20 + v.tcpOptionsSize)

/-- A view of the same header, with the options that it declares now. -/
def toView (v : TcpPacketView) : Except Fault TcpPacketView := parsePacket v.tcpHeader

def getTcpSrcPort (v : TcpPacketView) : Except Fault UShort := read16 v.tcpHeader 0

def getTcpDstPort (v : TcpPacketView) : Except Fault UShort := read16 v.tcpHeader 2

def getTcpSeqNumber (v : TcpPacketView) : Except Fault UInt := read32 v.tcpHeader 4

def getTcpAckNumber (v : TcpPacketView) : Except Fault UInt := read32 v.tcpHeader 8

def getTcpHeaderLength (v : TcpPacketView) : Except Fault UByte := do
  let b ← readAt v.tcpHeader 12
  return b >>> 4

/-- The NS bit of byte 12 is shifted by one, onto a flag of byte 13. -/
def getTcpFlags (v : TcpPacketView) : Except Fault TcpFlagsObject := do
  let b ← readAt v.tcpHeader 12
  let f ← readAt v.tcpHeader 13
  return ⟨(b &&& 0x1).toUInt16 <<< 1 ||| f.toUInt16⟩

def getTcpWindowSize (v : TcpPacketView) : Except Fault UShort := read16 v.tcpHeader 14

def getTcpUrgentPointer (v : TcpPacketView) : Except Fault UShort := read16 v.tcpHeader 18

def getTcpOptions (v : TcpPacketView) : Except Fault (List UByte) :=
  slice v.tcpHeader 20 (20 + v.tcpOptionsSize)

def getTransportLength (v : TcpPacketView) : Except Fault UShort := do
  let words ← v.getTcpHeaderLength
  return words.toUInt16 * 4

def isResetConnectionPacket (v : TcpPacketView) : Except Fault Bool := do
  let flags ← v.getTcpFlags
  return flags.getFin == 1 || flags.getRst == 1

end TcpPacketView

/-- A view that was just made is made again. -/
theorem TcpPacketView.toView_of_parsed {mem : List UByte} {v : TcpPacketView}
    (h : parsePacket mem = .ok v) : v.toView = .ok v := by
  have hsame := h
  obtain ⟨b, -, h⟩ := bind_eq_ok_iff.mp h
  cases Except.ok.inj h
  exact hsame

namespace TcpOptionsView

/-- Kinds 0 and 1 have no length byte; every other step is whatever the next byte says. -/
def getNextOptionOffset (mem : List UByte) (i : ℕ) : Except Fault UShort := do
  let kind ← readAt mem i
  if kind = 0 ∨ kind = 1 then
    return 1
  else
    let length ← readAt mem (i + 1)
    return length.toUInt16

/-- The printing loop over option bytes, for at most `fuel` iterations. -/
def walk (mem : List UByte) (size : ℕ) : ℕ → ℕ → Except Fault (List (UByte × UShort))
  | 0, i => if i < size then .error .noReturn else .ok []
  | fuel + 1, i =>
    if i < size then do
      let optLen ← getNextOptionOffset mem i
      let kind ← readAt mem i
      let rest ← walk mem size fuel (i + optLen.toNat)
      return (kind, optLen) :: rest
    else
      .ok []

/-- The loop bound is an unsigned 64-bit integer, so a negative distance becomes huge. -/
def sizeBound (size : ℤ) : ℕ := (size % 2 ^ 64).toNat

/-- Every iteration that advances reads a new byte of the memory, which bounds the fuel. -/
def toTcpOptionsFriendlyView (mem : List UByte) (size : ℤ) :
    Except Fault (List (UByte × UShort)) :=
  walk mem (sizeBound size) (mem.length + 1) 0

/-- The positions the walk visits from a position on. -/
inductive OptionAt (mem : List UByte) (size : ℕ) : ℕ → ℕ → Prop where
  | here (i : ℕ) : OptionAt mem size i i
  | next {i j : ℕ} {length : UShort} (hi : i < size)
      (hlength : getNextOptionOffset mem i = .ok length)
      (hj : OptionAt mem size (i + length.toNat) j) : OptionAt mem size i j

/-- No option that the walk visits has the length zero. -/
def OptionsAdvance (mem : List UByte) (size i : ℕ) : Prop :=
  ∀ j, OptionAt mem size i j → j < size → getNextOptionOffset mem j ≠ .ok 0

/-- One byte behind an option is enough to find the next. -/
theorem getNextOptionOffset_of_lt {mem : List UByte} {i : ℕ} (h : i + 1 < mem.length) :
    ∃ length, getNextOptionOffset mem i = .ok length := by
  obtain ⟨kind, hkind⟩ := readAt_of_lt (show i < mem.length by omega)
  obtain ⟨length, hlength⟩ := readAt_of_lt h
  unfold getNextOptionOffset
  rw [hkind, hlength, ok_bind]
  split
  · exact ⟨1, rfl⟩
  · exact ⟨length.toUInt16, rfl⟩

/-- An option of length zero is visited for ever. -/
theorem walk_of_zero {mem : List UByte} {size i : ℕ} (hi : i < size)
    (hzero : getNextOptionOffset mem i = .ok 0) (fuel : ℕ) (options : List (UByte × UShort)) :
    walk mem size fuel i ≠ .ok options := by
  induction fuel generalizing options with
  | zero =>
    rw [walk, if_pos hi]
    exact fun h => nomatch h
  | succ fuel ih =>
    rw [walk, if_pos hi, hzero, ok_bind]
    intro h
    obtain ⟨kind, -, h⟩ := bind_eq_ok_iff.mp h
    obtain ⟨rest, hrest, -⟩ := bind_eq_ok_iff.mp h
    exact ih rest hrest

/-- Every option that the walk visits has its length in memory, and takes the walk further. -/
def OptionsReadable (mem : List UByte) (size i : ℕ) : Prop :=
  ∀ j, OptionAt mem size i j → j < size → ∃ length, getNextOptionOffset mem j = .ok length ∧ length ≠ 0

/-- The walk ends exactly when it can step over every option that it visits. -/
theorem walk_readable_iff {mem : List UByte} {size fuel i : ℕ} (hfuel : size ≤ fuel + i) :
    (∃ options, walk mem size fuel i = .ok options) ↔ OptionsReadable mem size i := by
  induction fuel generalizing i with
  | zero =>
    have hi : ¬ i < size := by omega
    constructor
    · intro _ j hj hlt
      cases hj with
      | here => exact absurd hlt hi
      | next hi' => exact absurd hi' hi
    · intro _
      exact ⟨[], by rw [walk, if_neg hi]⟩
  | succ fuel ih =>
    by_cases hi : i < size
    · cases hlength : getNextOptionOffset mem i with
      | error fault =>
        constructor
        · rintro ⟨options, h⟩
          rw [walk, if_pos hi, hlength, error_bind] at h
          cases h
        · intro h
          obtain ⟨length, hlength', -⟩ := h i (.here i) hi
          cases hlength.symm.trans hlength'
      | ok length =>
        obtain ⟨kind, hkind, -⟩ := bind_eq_ok_iff.mp hlength
        have hstep : (∃ options, walk mem size (fuel + 1) i = .ok options) ↔
            ∃ options, walk mem size fuel (i + length.toNat) = .ok options := by
          rw [walk, if_pos hi, hlength, ok_bind, hkind, ok_bind]
          constructor
          · rintro ⟨options, h⟩
            obtain ⟨rest, hrest, -⟩ := bind_eq_ok_iff.mp h
            exact ⟨rest, hrest⟩
          · rintro ⟨rest, hrest⟩
            exact ⟨_, by rw [hrest]; rfl⟩
        by_cases hzero : length = 0
        · rw [hzero] at hlength
          constructor
          · rintro ⟨options, h⟩
            exact absurd h (walk_of_zero hi hlength _ _)
          · intro h
            obtain ⟨length', hlength', hpos⟩ := h i (.here i) hi
            exact absurd (Except.ok.inj (hlength'.symm.trans hlength)) hpos
        · have hpos : 0 < length.toNat := by
            rw [Nat.pos_iff_ne_zero]
            exact fun h => hzero (UInt16.toNat_inj.mp h)
          rw [hstep, ih (by omega)]
          constructor
          · intro h j hj hlt
            cases hj with
            | here => exact ⟨length, hlength, hzero⟩
            | next hi' hlength' hj' =>
              cases Except.ok.inj (hlength.symm.trans hlength')
              exact h j hj' hlt
          · intro h j hj hlt
            exact h j (.next hi hlength hj) hlt
    · constructor
      · intro _ j hj hlt
        cases hj with
        | here => exact absurd hlt hi
        | next hi' => exact absurd hi' hi
      · intro _
        exact ⟨[], by rw [walk, if_neg hi]⟩

/-- In memory that reaches behind the options, the walk ends exactly when every option that it
visits takes it further. -/
theorem walk_ok_iff {mem : List UByte} {size fuel i : ℕ} (hmem : size < mem.length)
    (hfuel : size ≤ fuel + i) :
    (∃ options, walk mem size fuel i = .ok options) ↔ OptionsAdvance mem size i := by
  rw [walk_readable_iff hfuel]
  constructor
  · intro h j hj hlt hzero
    obtain ⟨length, hlength, hpos⟩ := h j hj hlt
    exact hpos (Except.ok.inj (hlength.symm.trans hzero))
  · intro h j hj hlt
    obtain ⟨length, hlength⟩ := getNextOptionOffset_of_lt (show j + 1 < mem.length by omega)
    refine ⟨length, hlength, fun hzero => h j hj hlt ?_⟩
    rw [hlength, hzero]

/-- Options in memory can be printed exactly when the walk can step over each of them. -/
theorem toTcpOptionsFriendlyView_ok_iff {mem : List UByte} {size : ℕ} (hsize : size ≤ mem.length)
    (hsmall : size < 2 ^ 64) :
    (∃ options, toTcpOptionsFriendlyView mem size = .ok options) ↔ OptionsReadable mem size 0 := by
  have hbound : sizeBound size = size := by
    rw [sizeBound]
    omega
  rw [toTcpOptionsFriendlyView, hbound]
  exact walk_readable_iff (by omega)

end TcpOptionsView

/-- Printing a header reads all its fields and walks its options. -/
def TcpPacketView.toTcpFriendlyView (v : TcpPacketView) :
    Except Fault (List (UByte × UShort)) := do
  let _ ← v.getTcpSrcPort
  let _ ← v.getTcpDstPort
  let _ ← v.getTcpSeqNumber
  let _ ← v.getTcpAckNumber
  let _ ← v.getTcpFlags
  let _ ← v.getTcpWindowSize
  let _ ← read16 v.tcpHeader 16
  let _ ← v.getTcpUrgentPointer
  TcpOptionsView.toTcpOptionsFriendlyView (v.tcpHeader.drop 20) v.tcpOptionsSize

/-- The tunnel form of a TCP header: a length prefix, the fields and the option bytes. -/
structure QTunnelTCPViewScheme where
  data : List UByte
  length : UShort
  deriving DecidableEq, Repr

namespace QTunnelTCPViewScheme

def ofBytes (bytes : List UByte) : QTunnelTCPViewScheme := ⟨bytes, UInt16.ofNat bytes.length⟩

def getSeq (s : QTunnelTCPViewScheme) : Except Fault UInt := read32 s.data 2

def getAck (s : QTunnelTCPViewScheme) : Except Fault UInt := read32 s.data 6

def getFlags (s : QTunnelTCPViewScheme) : Except Fault TcpFlagsObject := do
  let flags ← read16 s.data 10
  return ⟨flags⟩

def getOffset (s : QTunnelTCPViewScheme) : Except Fault UByte := readAt s.data 12

def getWindow (s : QTunnelTCPViewScheme) : Except Fault UShort := read16 s.data 13

def getUrgentPointer (s : QTunnelTCPViewScheme) : Except Fault UShort := read16 s.data 15

/-- The option bytes start at 17, or are empty when the scheme is shorter. -/
def getOptions (s : QTunnelTCPViewScheme) : Except Fault (List UByte) :=
  slice s.data (if s.length.toNat > 17 then 17 else s.length.toNat) s.length.toNat

/-- The scheme bytes of a header; the prefix counts 15 field bytes and the options. -/
def generateObjectBytes (v : TcpPacketView) : Except Fault (List UByte) := do
  let seq ← v.getTcpSeqNumber
  let ack ← v.getTcpAckNumber
  let flags ← v.getTcpFlags
  let offset ← v.getTcpHeaderLength
  let window ← v.getTcpWindowSize
  let urgent ← v.getTcpUrgentPointer
  let options ← v.getTcpOptions
  let size : UShort := 15 + UInt16.ofNat options.length
  return bytes16 size ++ bytes32 seq ++ bytes32 ack ++ [flags.getNs, flags.getWithoutNs, offset] ++
    bytes16 window ++ bytes16 urgent ++ options

end QTunnelTCPViewScheme

/-- The fixed header and the declared options of a view lie in its memory. -/
structure TcpPacketView.InMemory (v : TcpPacketView) : Prop where
  options_nonneg : 0 ≤ v.tcpOptionsSize
  options_le : 20 + v.tcpOptionsSize ≤ v.tcpHeader.length

namespace TcpPacketView.InMemory

variable {v : TcpPacketView} (h : v.InMemory)
include h

/-- The flags of such a header can be read. -/
theorem getTcpFlags : ∃ flags, v.getTcpFlags = .ok flags := by
  have hsize := h.options_nonneg
  have hfits := h.options_le
  obtain ⟨b, hb⟩ := readAt_of_lt (show 12 < v.tcpHeader.length by omega)
  obtain ⟨f, hf⟩ := readAt_of_lt (show 13 < v.tcpHeader.length by omega)
  exact ⟨_, by rw [TcpPacketView.getTcpFlags, hb, ok_bind, hf]; rfl⟩

theorem isResetConnectionPacket : ∃ reset, v.isResetConnectionPacket = .ok reset := by
  obtain ⟨flags, hflags⟩ := h.getTcpFlags
  exact ⟨_, by rw [TcpPacketView.isResetConnectionPacket, hflags]; rfl⟩

/-- Its scheme can be made. -/
theorem generateObjectBytes : ∃ bytes, QTunnelTCPViewScheme.generateObjectBytes v = .ok bytes := by
  have hsize := h.options_nonneg
  have hfits := h.options_le
  obtain ⟨seq, hseq⟩ := read32_of_lt (show 4 + 3 < v.tcpHeader.length by omega)
  obtain ⟨ack, hack⟩ := read32_of_lt (show 8 + 3 < v.tcpHeader.length by omega)
  obtain ⟨flags, hflags⟩ := h.getTcpFlags
  obtain ⟨b, hb⟩ := readAt_of_lt (show 12 < v.tcpHeader.length by omega)
  obtain ⟨window, hwindow⟩ := read16_of_lt (show 14 + 1 < v.tcpHeader.length by omega)
  obtain ⟨urgent, hurgent⟩ := read16_of_lt (show 18 + 1 < v.tcpHeader.length by omega)
  obtain ⟨options, hoptions⟩ := slice_of_le v.tcpHeader (b := 20) (by omega)
    (show (20 : ℤ) ≤ 20 + v.tcpOptionsSize by omega) h.options_le
  rw [QTunnelTCPViewScheme.generateObjectBytes, getTcpSeqNumber, hseq, ok_bind, getTcpAckNumber,
    hack, ok_bind, hflags, ok_bind, getTcpHeaderLength, hb, ok_bind, pure_bind, getTcpWindowSize,
    hwindow, ok_bind, getTcpUrgentPointer, hurgent, ok_bind, getTcpOptions, hoptions]
  exact ⟨_, rfl⟩

/-- Printing it comes down to the walk over its options. -/
theorem toTcpFriendlyView : v.toTcpFriendlyView =
    TcpOptionsView.toTcpOptionsFriendlyView (v.tcpHeader.drop 20) v.tcpOptionsSize := by
  have hsize := h.options_nonneg
  have hfits := h.options_le
  obtain ⟨srcPort, hsrc⟩ := read16_of_lt (show 0 + 1 < v.tcpHeader.length by omega)
  obtain ⟨dstPort, hdst⟩ := read16_of_lt (show 2 + 1 < v.tcpHeader.length by omega)
  obtain ⟨seq, hseq⟩ := read32_of_lt (show 4 + 3 < v.tcpHeader.length by omega)
  obtain ⟨ack, hack⟩ := read32_of_lt (show 8 + 3 < v.tcpHeader.length by omega)
  obtain ⟨flags, hflags⟩ := h.getTcpFlags
  obtain ⟨window, hwindow⟩ := read16_of_lt (show 14 + 1 < v.tcpHeader.length by omega)
  obtain ⟨checksum, hchecksum⟩ := read16_of_lt (show 16 + 1 < v.tcpHeader.length by omega)
  obtain ⟨urgent, hurgent⟩ := read16_of_lt (show 18 + 1 < v.tcpHeader.length by omega)
  rw [TcpPacketView.toTcpFriendlyView, getTcpSrcPort, hsrc, ok_bind, getTcpDstPort, hdst, ok_bind,
    getTcpSeqNumber, hseq, ok_bind, getTcpAckNumber, hack, ok_bind, hflags, ok_bind,
    getTcpWindowSize, hwindow, ok_bind, hchecksum, ok_bind, getTcpUrgentPointer, hurgent, ok_bind]

/-- It can be printed exactly when every option takes the walk further, if some byte of memory
follows the options. -/
theorem toTcpFriendlyView_ok_iff (hbehind : 20 + v.tcpOptionsSize < v.tcpHeader.length)
    (hsmall : v.tcpOptionsSize < 2 ^ 64) :
    (∃ options, v.toTcpFriendlyView = .ok options) ↔
      TcpOptionsView.OptionsAdvance (v.tcpHeader.drop 20) v.tcpOptionsSize.toNat 0 := by
  have hsize := h.options_nonneg
  have hbound : TcpOptionsView.sizeBound v.tcpOptionsSize = v.tcpOptionsSize.toNat := by
    rw [TcpOptionsView.sizeBound, Int.emod_eq_of_lt hsize hsmall]
  have hdrop : (v.tcpHeader.drop 20).length = v.tcpHeader.length - 20 := List.length_drop
  rw [h.toTcpFriendlyView, TcpOptionsView.toTcpOptionsFriendlyView, hbound]
  exact TcpOptionsView.walk_ok_iff (by omega) (by omega)

end TcpPacketView.InMemory

/-- A TCP header held by value. -/
structure TcpPacketLittleEndian where
  header : List UByte
  deriving DecidableEq, Repr

namespace TcpPacketLittleEndian

/-- The header bytes made from its fields; the checksum bytes are zero. -/
def generateObjectBytes (srcPort dstPort : UShort) (seq ack : UInt) (offset : UByte)
    (flags : TcpFlagsObject) (windowSize urgent : UShort) (options : List UByte) : List UByte :=
  bytes16 srcPort ++ bytes16 dstPort ++ bytes32 seq ++ bytes32 ack ++
    [offset <<< 4 ||| (flags.getNs &&& 0x1), flags.getWithoutNs] ++ bytes16 windowSize ++ [0, 0] ++
    bytes16 urgent ++ options

/-- Copy twenty bytes, then as many option bytes as the copied data offset declares. -/
def parsePacket (mem : List UByte) : Except Fault TcpPacketLittleEndian := do
  let fixed ← slice mem 0 20
  let b ← readAt fixed 12
  let options ← slice mem 20 (20 + (((b >>> 4).toNat : ℤ) - 5) * 4)
  return ⟨fixed ++ options⟩

def generateObject (srcPort dstPort : UShort) (seq ack : UInt) (offset : UByte)
    (flags : TcpFlagsObject) (windowSize urgent : UShort) (options : List UByte) :
    Except Fault TcpPacketLittleEndian :=
  parsePacket (generateObjectBytes srcPort dstPort seq ack offset flags windowSize urgent options)

def getTransportLength (p : TcpPacketLittleEndian) : Except Fault UShort := do
  let b ← readAt p.header 12
  return (b >>> 4).toUInt16 * 4

end TcpPacketLittleEndian

end QVPN
