import Mathlib.Data.List.GetD
import QVPN.Properties.NewPayload

/-!
# Transplanted headers

Proto data collected from one packet is written over the header of another one. The fields are
replaced but for the NS bit, which is or-ed, and which collecting reports as SYN. A packet by value
takes options of any size. A view takes no more of them than it had, although its data offset is
replaced all the same: what it reports then as options is what its memory has behind the header.
-/

namespace QVPN

open BigEndian Memory Lens

/-- The fixed header with the fields of another one. Ports, checksum and the lower half of the
byte that holds the data offset stay. -/
def transplanted (fixed donor : List UByte) : List UByte :=
  fixed.take 4 ++ (donor.drop 4).take 8 ++
    [(donor.getD 12 0 >>> 4) <<< 4 ||| (fixed.getD 12 0 &&& 0x0F),
      tunnelledFlags (donor.getD 12 0) (donor.getD 13 0)] ++
    (donor.drop 14).take 2 ++ (fixed.drop 16).take 2 ++ (donor.drop 18).take 2

/-- The six fields of a scheme, written one after the other. -/
def TcpHeader.setFields (seq ack : UInt) (flags : TcpFlagsObject) (offset : UByte)
    (window urgent : UShort) (header : List UByte) : Except Fault (List UByte) :=
  write32 header 4 seq >>= (write32 · 8 ack) >>= (setFlags · flags) >>= (setOffset · offset) >>=
    (write16 · 14 window) >>= (write16 · 18 urgent)

/-- They lie in the fixed header. -/
theorem TcpHeader.editsFront_setFields (seq ack : UInt) (flags : TcpFlagsObject) (offset : UByte)
    (window urgent : UShort) : EditsFront 20 (setFields seq ack flags offset window urgent) :=
  (((((editsFront_write32 (by decide) seq).andThen (editsFront_write32 (by decide) ack)).andThen
    (editsFront_setFlags flags)).andThen (editsFront_setOffset offset)).andThen
    (editsFront_write16 (by decide) window)).andThen (editsFront_write16 (by decide) urgent)

/-- They are written over the fixed header, except that NS is or-ed. -/
theorem TcpHeader.setFields_fixed {fixed : List UByte} (h : fixed.length = 20) (seq ack : UInt)
    (flags : TcpFlagsObject) (offset : UByte) (window urgent : UShort) :
    setFields seq ack flags offset window urgent fixed = .ok (fixed.take 4 ++ bytes32 seq ++
      bytes32 ack ++ [offset <<< 4 ||| ((fixed.getD 12 0 ||| flags.getNs) &&& 0x0F),
        flags.getWithoutNs] ++ bytes16 window ++ (fixed.drop 16).take 2 ++ bytes16 urgent) := by
  obtain ⟨b0, b1, b2, b3, b4, b5, b6, b7, b8, b9, b10, b11, b12, b13, b14, b15, b16, b17, b18, b19,
    rfl⟩ := exists_twentyBytes h
  -- What is written stands in front, what is still to be written behind.
  let front := [b0, b1, b2, b3] ++ bytes32 seq ++ bytes32 ack
  have hseq : write32 [b0, b1, b2, b3, b4, b5, b6, b7, b8, b9, b10, b11, b12, b13, b14, b15, b16,
      b17, b18, b19] 4 seq = .ok ([b0, b1, b2, b3] ++ bytes32 seq ++
        [b8, b9, b10, b11, b12, b13, b14, b15, b16, b17, b18, b19]) := rfl
  have hack : write32 ([b0, b1, b2, b3] ++ bytes32 seq ++
      [b8, b9, b10, b11, b12, b13, b14, b15, b16, b17, b18, b19]) 8 ack =
        .ok (front ++ [b12, b13, b14, b15, b16, b17, b18, b19]) := rfl
  have hflags : setFlags (front ++ [b12, b13, b14, b15, b16, b17, b18, b19]) flags =
      .ok (front ++ [b12 ||| flags.getNs, flags.getWithoutNs, b14, b15, b16, b17, b18, b19]) := rfl
  have hoffset : setOffset (front ++ [b12 ||| flags.getNs, flags.getWithoutNs, b14, b15, b16, b17,
      b18, b19]) offset = .ok (front ++ [offset <<< 4 ||| ((b12 ||| flags.getNs) &&& 0x0F),
        flags.getWithoutNs, b14, b15, b16, b17, b18, b19]) := rfl
  have hwindow : write16 (front ++ [offset <<< 4 ||| ((b12 ||| flags.getNs) &&& 0x0F),
      flags.getWithoutNs, b14, b15, b16, b17, b18, b19]) 14 window =
        .ok (front ++ [offset <<< 4 ||| ((b12 ||| flags.getNs) &&& 0x0F), flags.getWithoutNs] ++
          bytes16 window ++ [b16, b17, b18, b19]) := rfl
  rw [setFields, hseq, ok_bind, hack, ok_bind, hflags, ok_bind, hoffset, ok_bind, hwindow, ok_bind]
  rfl

/-- A copied header takes the fields of a scheme, then its options. -/
theorem TcpPacketLittleEndian.setScheme_eq {scheme : QTunnelTCPViewScheme} {seq ack : UInt}
    {flags : TcpFlagsObject} {offset : UByte} {window urgent : UShort} {options : List UByte}
    (hseq : scheme.getSeq = .ok seq) (hack : scheme.getAck = .ok ack)
    (hflags : scheme.getFlags = .ok flags) (hoffset : scheme.getOffset = .ok offset)
    (hwindow : scheme.getWindow = .ok window) (hurgent : scheme.getUrgentPointer = .ok urgent)
    (hoptions : scheme.getOptions = .ok options) (p : TcpPacketLittleEndian) :
    p.setScheme scheme = TcpHeader.setFields seq ack flags offset window urgent p.header >>=
      fun header => setTcpOptions ⟨header⟩ options := by
  simp only [setScheme, hseq, hack, hflags, hoffset, hwindow, hurgent, hoptions, ok_bind,
    setTcpSeqNumber, setTcpAckNumber, setTcpFlags, setTcpOffset, setTcpWindow, setTcpUrgent,
    bind_assoc, pure_bind, TcpHeader.setFields]

/-- A view does the same in its memory. -/
theorem TcpPacketView.setScheme_eq {scheme : QTunnelTCPViewScheme} {seq ack : UInt}
    {flags : TcpFlagsObject} {offset : UByte} {window urgent : UShort} {options : List UByte}
    (hseq : scheme.getSeq = .ok seq) (hack : scheme.getAck = .ok ack)
    (hflags : scheme.getFlags = .ok flags) (hoffset : scheme.getOffset = .ok offset)
    (hwindow : scheme.getWindow = .ok window) (hurgent : scheme.getUrgentPointer = .ok urgent)
    (hoptions : scheme.getOptions = .ok options) (v : TcpPacketView) :
    v.setScheme scheme = TcpHeader.setFields seq ack flags offset window urgent v.tcpHeader >>=
      fun tcpHeader => setTcpOptions { v with tcpHeader } options := by
  simp only [setScheme, hseq, hack, hflags, hoffset, hwindow, hurgent, hoptions, ok_bind,
    setTcpSeqNumber, setTcpAckNumber, setTcpFlags, setTcpOffset, setTcpWindow, setTcpUrgent,
    bind_assoc, pure_bind, TcpHeader.setFields]

section Scheme

variable {fixed donor : List UByte} (hfixed : fixed.length = 20) (hdonor : donor.length = 20)

section Reads

include hdonor

/-- The fields that a scheme holds of a header, whose bytes are the ones of the header. -/
theorem schemeOf_reads (options : List UByte) : ∃ seq ack window urgent,
    (QTunnelTCPViewScheme.ofBytes (schemeOf donor options)).getSeq = .ok seq ∧
    (QTunnelTCPViewScheme.ofBytes (schemeOf donor options)).getAck = .ok ack ∧
    (QTunnelTCPViewScheme.ofBytes (schemeOf donor options)).getWindow = .ok window ∧
    (QTunnelTCPViewScheme.ofBytes (schemeOf donor options)).getUrgentPointer = .ok urgent ∧
    (QTunnelTCPViewScheme.ofBytes (schemeOf donor options)).getFlags =
      .ok ⟨join 0 (tunnelledFlags (donor.getD 12 0) (donor.getD 13 0))⟩ ∧
    (QTunnelTCPViewScheme.ofBytes (schemeOf donor options)).getOffset =
      .ok (donor.getD 12 0 >>> 4) ∧
    bytes32 seq ++ bytes32 ack = (donor.drop 4).take 8 ∧
    bytes16 window = (donor.drop 14).take 2 ∧ bytes16 urgent = (donor.drop 18).take 2 := by
  obtain ⟨b0, b1, b2, b3, b4, b5, b6, b7, b8, b9, b10, b11, b12, b13, b14, b15, b16, b17, b18, b19,
    rfl⟩ := exists_twentyBytes hdonor
  refine ⟨join32 b4 b5 b6 b7, join32 b8 b9 b10 b11, join b14 b15, join b18 b19, rfl, rfl, rfl, rfl,
    rfl, rfl, ?_, ?_, ?_⟩
  · rw [bytes32_join32, bytes32_join32]
    rfl
  · rw [bytes16, hi_join, lo_join]
    rfl
  · rw [bytes16, hi_join, lo_join]
    rfl

/-- The options that a scheme of no more than sixteen bits holds. -/
theorem schemeOf_options {options : List UByte} (hoptions : options.length ≤ 40) :
    (QTunnelTCPViewScheme.ofBytes (schemeOf donor options)).getOptions = .ok options := by
  obtain ⟨front, hfront, hsplit⟩ : ∃ front : List UByte, front.length = 17 ∧
      schemeOf donor options = front ++ options := by
    refine ⟨_, ?_, rfl⟩
    simp only [List.length_append, List.length_take, List.length_drop, bytes16_length, hdonor,
      List.length_cons, List.length_nil]
    rfl
  have hlength : (UInt16.ofNat (front ++ options).length).toNat = 17 + options.length := by
    rw [List.length_append, hfront]
    exact UInt16.toNat_ofNat_of_lt (by change _ < 65536; omega)
  rw [hsplit, QTunnelTCPViewScheme.getOptions, QTunnelTCPViewScheme.ofBytes, hlength]
  apply slice_suffix
  · rw [hfront]
    split <;> omega
  · rw [hfront]
    rfl

end Reads

include hfixed hdonor

/-- Writing a scheme transplants the fixed header, whatever follows it, and then sets options. -/
theorem setScheme_transplanted {options : List UByte} (hoptions : options.length ≤ 40)
    (rest : List UByte) :
    TcpPacketLittleEndian.setScheme ⟨fixed ++ rest⟩ (.ofBytes (schemeOf donor options)) =
        TcpPacketLittleEndian.setTcpOptions ⟨transplanted fixed donor ++ rest⟩ options ∧
      ∀ size, TcpPacketView.setScheme ⟨fixed ++ rest, size⟩ (.ofBytes (schemeOf donor options)) =
        TcpPacketView.setTcpOptions ⟨transplanted fixed donor ++ rest, size⟩ options := by
  have hread := schemeOf_options hdonor hoptions
  obtain ⟨seq, ack, window, urgent, hseq, hack, hwindow, hurgent, hflags, hoffset, hnumbers,
    hwindow', hurgent'⟩ := schemeOf_reads hdonor options
  have hclear := flags_of_scheme (tunnelledFlags (donor.getD 12 0) (donor.getD 13 0))
  have hfront := TcpHeader.setFields_fixed hfixed seq ack
    ⟨join 0 (tunnelledFlags (donor.getD 12 0) (donor.getD 13 0))⟩ (donor.getD 12 0 >>> 4) window
    urgent
  rw [hclear.1, hclear.2, UInt8.or_zero, List.append_assoc (fixed.take 4), hnumbers, hwindow',
    hurgent', ← transplanted] at hfront
  obtain ⟨header, hheader, hall, -⟩ := TcpHeader.editsFront_setFields seq ack
    ⟨join 0 (tunnelledFlags (donor.getD 12 0) (donor.getD 13 0))⟩ (donor.getD 12 0 >>> 4) window
    urgent fixed rest hfixed.ge
  cases hfront.symm.trans hheader
  constructor
  · rw [TcpPacketLittleEndian.setScheme_eq hseq hack hflags hoffset hwindow hurgent hread]
    dsimp only
    rw [hall, ok_bind]
  · intro size
    rw [TcpPacketView.setScheme_eq hseq hack hflags hoffset hwindow hurgent hread]
    dsimp only
    rw [hall, ok_bind]

end Scheme

section Options

variable {front : List UByte} (hfront : front.length = 20)
include hfront

/-- New options take the front of the old ones of a copied header, however many there are. -/
theorem TcpPacketLittleEndian.setTcpOptions_front (old new : List UByte) :
    setTcpOptions ⟨front ++ old⟩ new = .ok ⟨front ++ (new ++ old.drop new.length)⟩ := by
  have hold : getTcpOptions ⟨front ++ old⟩ = .ok old :=
    slice_suffix _ _ _ _ (by rw [hfront]; rfl) (by rw [List.length_append]; rfl)
  have hsize : (new.take (min new.length old.length)).length =
      (old.take (min new.length old.length)).length := by
    rw [List.length_take, List.length_take]
    omega
  have hwrite := overwrite_append front _ _ (old.drop (min new.length old.length)) hfront.symm hsize
  rw [List.append_assoc front, List.take_append_drop] at hwrite
  rw [setTcpOptions, hold, ok_bind]
  dsimp only
  rw [hwrite, ok_bind]
  change Except.ok (TcpPacketLittleEndian.mk _) = .ok _
  congr 2
  rcases Nat.le_total new.length old.length with hle | hle
  · rw [Nat.min_eq_left hle, List.take_length, List.drop_length, List.append_nil, List.append_assoc]
  · rw [Nat.min_eq_right hle, List.drop_length, List.append_nil, List.append_assoc,
      List.take_append_drop, List.drop_eq_nil_of_le hle, List.append_nil]

/-- A view takes them when it has as many. -/
theorem TcpPacketView.setTcpOptions_front {rest new : List UByte} {size : ℤ}
    (hle : (new.length : ℤ) ≤ size) (hrest : new.length ≤ rest.length) :
    setTcpOptions ⟨front ++ rest, size⟩ new =
      .ok ⟨front ++ (new ++ rest.drop new.length), new.length⟩ := by
  have hwrite := overwrite_append front (rest.take new.length) new (rest.drop new.length)
    hfront.symm (List.length_take_of_le hrest).symm
  rw [List.append_assoc front, List.take_append_drop] at hwrite
  rw [setTcpOptions, if_neg (by dsimp only; omega)]
  dsimp only
  rw [hwrite, List.append_assoc]
  rfl

/-- Afterwards the new options stand behind the fixed header if they fit over the old ones, or did
so before. Nothing moves. -/
theorem TcpPacketView.exists_setTcpOptions (old new behind : List UByte) :
    ∃ (options : List UByte) (size : ℤ), options.length = old.length ∧
      setTcpOptions ⟨front ++ (old ++ behind), old.length⟩ new =
        .ok ⟨front ++ (options ++ behind), size⟩ ∧
      (new <+: options ++ behind ↔ new.length ≤ old.length ∨ new <+: old ++ behind) := by
  by_cases hle : new.length ≤ old.length
  · refine ⟨new ++ old.drop new.length, new.length, ?_, ?_, ?_⟩
    · rw [List.length_append, List.length_drop]
      omega
    · rw [setTcpOptions_front hfront (by omega) (by rw [List.length_append]; omega),
        List.drop_append_of_le_length hle, List.append_assoc]
    · rw [List.append_assoc]
      exact iff_of_true (List.prefix_append _ _) (.inl hle)
  · refine ⟨old, old.length, rfl, if_pos (by dsimp only; omega), ?_⟩
    rw [or_iff_right hle]

end Options

/-- What a header reports of itself, and what lies in memory behind it. -/
def collectFrom (mem : List UByte) : Except Fault (List UByte) := do
  let view ← TcpPacketView.parsePacket mem
  QTunnelTCPViewScheme.generateObjectBytes view

/-- The options are as many as the data offset declares. -/
theorem collectFrom_fixed {fixed : List UByte} (h : fixed.length = 20) (rest : List UByte) :
    collectFrom (fixed ++ rest) =
      (slice rest 0 (((declaredOffset fixed : ℤ) - 5) * 4)).map (schemeOf fixed) := by
  rw [collectFrom, TcpPacketView.parsePacket, readAt_append_getD (by omega) 0]
  exact generateObjectBytes_fixed h rest _

section Flags

/-- The byte of the data offset keeps its lower half. -/
theorem offsetByte_halves (c b : UByte) :
    ((c >>> 4) <<< 4 ||| (b &&& (0x0F : UByte))) >>> 4 = c >>> 4 ∧
      ((c >>> 4) <<< 4 ||| (b &&& (0x0F : UByte))) &&& 0x1 = b &&& 0x1 := by
  have hshift : ((c >>> 4) <<< 4) >>> 4 = c >>> 4 := by
    revert c
    exact forall_byte (by decide +kernel)
  have hnone : (b &&& (0x0F : UByte)) >>> 4 = 0 := by
    revert b
    exact forall_byte (by decide +kernel)
  have hclear : (c >>> 4) <<< 4 &&& (0x1 : UByte) = 0 := by
    revert c
    exact forall_byte (by decide +kernel)
  have hlow : b &&& (0x0F : UByte) &&& 0x1 = b &&& 0x1 := by
    revert b
    exact forall_byte (by decide +kernel)
  constructor
  · rw [UInt8.shiftRight_or, hshift, hnone, UInt8.or_zero]
  · rw [or_and, hclear, hlow, UInt8.zero_or]

/-- A flag byte that comes from a scheme is read as it was unless NS adds SYN to it. -/
theorem tunnelledFlags_again_iff (b c f : UByte) :
    tunnelledFlags ((c >>> 4) <<< 4 ||| (b &&& 0x0F)) (tunnelledFlags c f) = tunnelledFlags c f ↔
      b &&& 0x1 = 0 ∨ c &&& 0x1 = 1 ∨ f &&& 0x2 = 0x2 := by
  have hlow := (offsetByte_halves c b).2
  have hsyn : f ||| 0x2 = f ↔ f &&& 0x2 = 0x2 := by
    revert f
    exact forall_byte (by decide +kernel)
  have hone : (1 : UByte) ≠ 0 := by decide
  rcases lowBit_cases b with hb | hb
  · rw [tunnelledFlags_of_ns_clear (hlow.trans hb)]
    exact iff_of_true rfl (.inl hb)
  · rw [tunnelledFlags_of_ns_set (hlow.trans hb), hb, or_iff_right hone]
    rcases lowBit_cases c with hc | hc
    · rw [tunnelledFlags_of_ns_clear hc, hc, or_iff_right hone.symm]
      exact hsyn
    · rw [tunnelledFlags_of_ns_set hc, UInt8.or_assoc]
      exact iff_of_true rfl (.inl hc)

end Flags

/-- NS of a header is clear, or not seen because the other header sets SYN anyway. -/
def NsFits (mem donor : List UByte) : Prop :=
  nsFlag mem = 0 ∨ nsFlag donor = 1 ∨ donor.getD 13 0 &&& 0x2 = 0x2

instance (mem donor : List UByte) : Decidable (NsFits mem donor) :=
  inferInstanceAs (Decidable (_ ∨ _ ∨ _))

/-- What a transplanted header reports is what the other header reported. -/
theorem schemeOf_transplanted_iff {fixed donor : List UByte} (hfixed : fixed.length = 20)
    (hdonor : donor.length = 20) (options new : List UByte) :
    schemeOf (transplanted fixed donor) options = schemeOf donor new ↔
      NsFits fixed donor ∧ options = new := by
  obtain ⟨b0, b1, b2, b3, b4, b5, b6, b7, b8, b9, b10, b11, b12, b13, b14, b15, b16, b17, b18, b19,
    rfl⟩ := exists_twentyBytes hfixed
  obtain ⟨c0, c1, c2, c3, c4, c5, c6, c7, c8, c9, c10, c11, c12, c13, c14, c15, c16, c17, c18, c19,
    rfl⟩ := exists_twentyBytes hdonor
  have hagain := tunnelledFlags_again_iff b12 c12 c13
  let scheme (flags offset : UByte) (options : List UByte) :=
    bytes16 (15 + UInt16.ofNat options.length) ++ (c4 :: c5 :: c6 :: c7 :: c8 :: c9 :: c10 :: c11 ::
      0 :: flags :: offset :: c14 :: c15 :: c18 :: c19 :: options)
  change scheme (tunnelledFlags ((c12 >>> 4) <<< 4 ||| (b12 &&& 0x0F)) (tunnelledFlags c12 c13))
    (((c12 >>> 4) <<< 4 ||| (b12 &&& 0x0F)) >>> 4) options =
      scheme (tunnelledFlags c12 c13) (c12 >>> 4) new ↔ _
  rw [(offsetByte_halves c12 b12).1]
  constructor
  · intro heq
    have hrest := (List.append_inj heq rfl).2
    simp only [List.cons.injEq, true_and] at hrest
    exact ⟨hagain.mp hrest.1, hrest.2⟩
  · rintro ⟨hns, rfl⟩
    rw [hagain.mpr hns]

/-- The options that a header in memory declares. -/
def tcpOptions (mem : List UByte) : List UByte := (mem.drop 20).take (4 * (declaredOffset mem - 5))

namespace FullPacketForm

def collectProtoData : FullPacketForm → Except Fault QTunnelProtoData
  | .fatTcp p => p.collectProtoData
  | .fatUdp p => p.collectProtoData
  | .views p => p.collectProtoData

def setQtunnelProtoData : FullPacketForm → QTunnelProtoData → Except Fault FullPacketForm
  | .fatTcp p, data => (p.setQtunnelProtoData data).map .fatTcp
  | .fatUdp p, data => .ok (.fatUdp (p.setQtunnelProtoData data))
  | .views p, data => (p.setQtunnelProtoData data).map .views

def getSrcPort : FullPacketForm → Except Fault UShort
  | .fatTcp p => p.transport.getTcpSrcPort
  | .fatUdp p => p.transport.getUdpSrcPort
  | .views p => p.getSrcPort

def getDstPort : FullPacketForm → Except Fault UShort
  | .fatTcp p => p.transport.getTcpDstPort
  | .fatUdp p => p.transport.getUdpDstPort
  | .views p => p.getDstPort

def getPayload : FullPacketForm → Except Fault (List UByte)
  | .fatTcp p => .ok p.payload
  | .fatUdp p => .ok p.payload
  | .views (.tcp ip transport payload) =>
    FullPacketView.getPayload ip.header (.tcp ip transport payload)
  | .views (.udp ip transport payload) =>
    FullPacketView.getPayload ip.header (.udp ip transport payload)
  | .views .dummy => .ok []

/-- A packet carrying TCP, whose header has the size it declares. Views lie one behind the other,
and there may be memory behind the packet. -/
def IsTcpPacket : FullPacketForm → Prop
  | .fatTcp p => IsTcpLayout p.transport.header
  | .views (.tcp ip transport payload) => ∃ net header data behind : List UByte,
      ip.getSize.toNat = net.length ∧ IsTcpLayout header ∧
      ip.header = net ++ (header ++ (data ++ behind)) ∧
      transport = ⟨header ++ (data ++ behind), header.length - 20⟩ ∧
      payload = ((net.length + header.length : ℤ), (net.length + header.length + data.length : ℤ))
  | _ => False

/-- The memory from the TCP header on. -/
def tcpMemoryOf : FullPacketForm → List UByte
  | .fatTcp p => p.transport.header
  | .views (.tcp _ transport _) => transport.tcpHeader
  | _ => []

/-- Proto data of the second packet makes the first one report the same, and nothing else
changes. -/
def Transplants (p q : FullPacketForm) : Prop :=
  ∃ data p', q.collectProtoData = .ok data ∧ p.setQtunnelProtoData data = .ok p' ∧
    p'.collectProtoData = .ok data ∧ p'.getSrcPort = p.getSrcPort ∧
    p'.getDstPort = p.getDstPort ∧ p'.getPayload = p.getPayload

/-- A packet that can hold the options of a header. Views need room for them, unless the options
are what their memory has behind the fixed header already. -/
def OptionsFit (p : FullPacketForm) (donor : List UByte) : Prop :=
  match p with
  | .views p => declaredOffset donor ≤ declaredOffset (tcpMemoryOf (.views p)) ∨
      tcpOptions donor <+: (tcpMemoryOf (.views p)).drop 20
  | _ => True

/-- The header of the second packet fits the first one. -/
def TransplantFits (p q : FullPacketForm) : Prop :=
  NsFits p.tcpMemoryOf q.tcpMemoryOf ∧ p.OptionsFit q.tcpMemoryOf

end FullPacketForm

/-- A fixed header and as many options as it declares. -/
structure IsTcpParts (fixed options : List UByte) : Prop where
  fixed_length : fixed.length = 20
  options_length : (options.length : ℤ) = ((declaredOffset fixed : ℤ) - 5) * 4

/-- A complete header is a fixed one and its options. -/
theorem IsTcpLayout.exists_parts {header : List UByte} (h : IsTcpLayout header) :
    ∃ fixed options, IsTcpParts fixed options ∧ header = fixed ++ options := by
  have hlength := h.length_eq
  have hge := h.offset_ge
  have hsame : declaredOffset (header.take 20) = declaredOffset header := by
    rw [declaredOffset, getD_take (by decide), declaredOffset]
  refine ⟨header.take 20, header.drop 20, ⟨List.length_take_of_le (by omega), ?_⟩,
    (List.take_append_drop 20 header).symm⟩
  rw [List.length_drop, hsame]
  omega

namespace IsTcpParts

variable {fixed options : List UByte} (h : IsTcpParts fixed options)
include h

theorem options_le : options.length ≤ 40 := by
  have hlength := h.options_length
  have hle : declaredOffset fixed ≤ 15 := highNibble_le _
  omega

/-- What follows the fixed header does not change what it declares. -/
theorem getD_append {i : ℕ} (hi : i < 20) (rest : List UByte) :
    (fixed ++ rest).getD i 0 = fixed.getD i 0 :=
  List.getD_append _ _ _ _ (hi.trans_eq h.fixed_length.symm)

theorem declaredOffset_append (rest : List UByte) :
    declaredOffset (fixed ++ rest) = declaredOffset fixed := by
  rw [declaredOffset, h.getD_append (by decide), declaredOffset]

theorem nsFlag_append (rest : List UByte) : nsFlag (fixed ++ rest) = nsFlag fixed := by
  rw [nsFlag, h.getD_append (by decide), nsFlag]

/-- The options are the ones that are declared. -/
theorem tcpOptions_eq (behind : List UByte) :
    tcpOptions (fixed ++ (options ++ behind)) = options := by
  have hlength := h.options_length
  have hcount : 4 * (declaredOffset (fixed ++ (options ++ behind)) - 5) = options.length := by
    rw [h.declaredOffset_append]
    omega
  rw [tcpOptions, ← h.fixed_length, List.drop_left, hcount, List.take_left]

/-- A complete header reports its own options. -/
theorem collectFrom_eq (behind : List UByte) :
    collectFrom (fixed ++ (options ++ behind)) = .ok (schemeOf fixed options) := by
  rw [collectFrom_fixed h.fixed_length, ← h.options_length, slice_prefix _ _ _ rfl]
  rfl

end IsTcpParts

/-- The ports stay. -/
theorem ports_transplanted {fixed : List UByte} (h : fixed.length = 20)
    (donor rest rest' : List UByte) :
    read16 (transplanted fixed donor ++ rest') 0 = read16 (fixed ++ rest) 0 ∧
      read16 (transplanted fixed donor ++ rest') 2 = read16 (fixed ++ rest) 2 := by
  obtain ⟨b0, b1, b2, b3, b4, b5, b6, b7, b8, b9, b10, b11, b12, b13, b14, b15, b16, b17, b18, b19,
    rfl⟩ := exists_twentyBytes h
  exact ⟨rfl, rfl⟩

section Collect

variable {fixed donor : List UByte} (hfixed : fixed.length = 20) (hdonor : donor.length = 20)
include hfixed hdonor

theorem transplanted_length : (transplanted fixed donor).length = 20 := by
  simp only [transplanted, List.length_append, List.length_take, List.length_drop, hfixed, hdonor,
    List.length_cons, List.length_nil]
  rfl

/-- The data offset is the one of the other header. -/
theorem declaredOffset_transplanted :
    declaredOffset (transplanted fixed donor) = declaredOffset donor := by
  obtain ⟨b0, b1, b2, b3, b4, b5, b6, b7, b8, b9, b10, b11, b12, b13, b14, b15, b16, b17, b18, b19,
    rfl⟩ := exists_twentyBytes hfixed
  obtain ⟨c0, c1, c2, c3, c4, c5, c6, c7, c8, c9, c10, c11, c12, c13, c14, c15, c16, c17, c18, c19,
    rfl⟩ := exists_twentyBytes hdonor
  exact congrArg UInt8.toNat (offsetByte_halves c12 b12).1

/-- A transplanted header reports what the other one did exactly when its flags can be restored
and the memory behind it begins with the options. -/
theorem collectFrom_transplanted_iff {new : List UByte}
    (hnew : (new.length : ℤ) = ((declaredOffset donor : ℤ) - 5) * 4) (rest : List UByte) :
    collectFrom (transplanted fixed donor ++ rest) = .ok (schemeOf donor new) ↔
      NsFits fixed donor ∧ new <+: rest := by
  rw [collectFrom_fixed (transplanted_length hfixed hdonor),
    declaredOffset_transplanted hfixed hdonor, ← hnew]
  by_cases hle : new.length ≤ rest.length
  · have hslice : slice rest 0 new.length = .ok (rest.take new.length) := by
      have hall := slice_take hle [] (rfl : (new.length : ℤ) = new.length)
      rwa [List.append_nil] at hall
    rw [hslice, List.prefix_iff_eq_take, eq_comm (a := new),
      ← schemeOf_transplanted_iff hfixed hdonor]
    exact ⟨Except.ok.inj, congrArg _⟩
  · constructor
    · intro hcollected
      cases hslice : slice rest 0 new.length with
      | error fault =>
        rw [hslice] at hcollected
        cases hcollected
      | ok options => exact absurd (slice_eq_ok_iff.mp hslice).2.2.1 (by omega)
    · rintro ⟨-, hprefix⟩
      exact absurd hprefix.length_le hle

end Collect

namespace FullPacketForm

/-- Collecting looks at the memory from the TCP header on. -/
theorem collectProtoData_fatTcp (p : Ipv4TcpFatPacket) :
    collectProtoData (.fatTcp p) = (collectFrom p.transport.header).map QTunnelProtoData.mk := by
  rw [collectFrom, ← bind_wrap, bind_assoc]
  rfl

theorem collectProtoData_view (ip : Ipv4PacketView) (transport : TcpPacketView) (payload : ℤ × ℤ) :
    collectProtoData (.views (.tcp ip transport payload)) =
      (collectFrom transport.tcpHeader).map QTunnelProtoData.mk := by
  rw [collectFrom, ← bind_wrap, bind_assoc]
  rfl

/-- Received packets are such packets: every one that is copied, and views of one that has no IP
options. -/
theorem isTcpPacket_of_bytes {net transport : List UByte} (hnet : IsIpv4Layout net)
    (htransport : IsTcpLayout transport) (hle : net.length + transport.length ≤ 65535)
    (payload behind : List UByte) :
    (∃ p, Ipv4TcpFatPacket.ofBytes (net ++ transport ++ payload ++ behind)
      (net ++ transport ++ payload).length = .ok p ∧ IsTcpPacket (.fatTcp p)) ∧
    (declaredWords net = 5 → ∃ p, FullPacketView.ipv4Tcp (net ++ transport ++ payload ++ behind)
      (net ++ transport ++ payload).length = .ok p ∧ IsTcpPacket (.views p)) := by
  constructor
  · exact ⟨_, Ipv4TcpFatPacket.ofBytes_layout hnet htransport hle payload behind, htransport⟩
  · intro hwords
    have hlength : net.length = 20 := by rw [hnet.length_eq, hwords]
    have hview := FullPacketView.ipv4Tcp_plain hnet hwords htransport (payload ++ behind)
      (net ++ transport ++ payload).length
    rw [← List.append_assoc] at hview
    refine ⟨_, hview, net, transport, payload, behind, hlength.symm, htransport, ?_, rfl, ?_⟩
    · rw [List.append_assoc, List.append_assoc]
    · rw [List.length_append, List.length_append, hlength]
      rfl

/-- What a packet carrying TCP reports. -/
theorem IsTcpPacket.exists_donor {q : FullPacketForm} (h : q.IsTcpPacket) :
    ∃ donor options behind, IsTcpParts donor options ∧
      q.tcpMemoryOf = donor ++ (options ++ behind) ∧
      q.collectProtoData = .ok ⟨schemeOf donor options⟩ := by
  have hfound : ∃ header behind, IsTcpLayout header ∧ q.tcpMemoryOf = header ++ behind ∧
      q.collectProtoData = (collectFrom (header ++ behind)).map QTunnelProtoData.mk := by
    cases q with
    | fatTcp q =>
      refine ⟨q.transport.header, [], h, (List.append_nil _).symm, ?_⟩
      rw [collectProtoData_fatTcp, List.append_nil]
    | fatUdp q => exact absurd h id
    | views q =>
      cases q with
      | tcp ip transport payload =>
        obtain ⟨net, header, data, behind, -, hheader, -, rfl, -⟩ := h
        exact ⟨header, data ++ behind, hheader, rfl, collectProtoData_view _ _ _⟩
      | udp ip transport payload => exact absurd h id
      | dummy => exact absurd h id
  obtain ⟨header, behind, hheader, hmem, hcollect⟩ := hfound
  obtain ⟨donor, options, hparts, rfl⟩ := hheader.exists_parts
  rw [List.append_assoc] at hmem hcollect
  refine ⟨donor, options, behind, hparts, hmem, ?_⟩
  rw [hcollect, hparts.collectFrom_eq]
  rfl

/-- When proto data can be set, only what is collected then is in question. -/
theorem transplants_iff_of_set {p p' q : FullPacketForm} {data : QTunnelProtoData}
    (hcollect : q.collectProtoData = .ok data) (hset : p.setQtunnelProtoData data = .ok p')
    (hsrc : p'.getSrcPort = p.getSrcPort) (hdst : p'.getDstPort = p.getDstPort)
    (hpayload : p'.getPayload = p.getPayload) :
    p.Transplants q ↔ p'.collectProtoData = .ok data := by
  constructor
  · rintro ⟨data', p'', hcollect', hset', hagain, -⟩
    cases hcollect.symm.trans hcollect'
    cases hset.symm.trans hset'
    exact hagain
  · intro hagain
    exact ⟨data, p', hcollect, hset, hagain, hsrc, hdst, hpayload⟩

theorem map_mk_eq_ok_iff (x : Except Fault (List UByte)) (bytes : List UByte) :
    x.map QTunnelProtoData.mk = .ok ⟨bytes⟩ ↔ x = .ok bytes := by
  cases x with
  | error fault => exact iff_of_false (fun h => nomatch h) (fun h => nomatch h)
  | ok bytes' => simp only [Except.map, Except.ok.injEq, QTunnelProtoData.mk.injEq]

section Set

variable {donor new : List UByte} (hdonor : IsTcpParts donor new) {q : FullPacketForm}
  (hcollect : q.collectProtoData = .ok ⟨schemeOf donor new⟩)
include hdonor hcollect

/-- A packet by value only needs its flags to be restored. -/
theorem fatTcp_transplants {p : Ipv4TcpFatPacket} (h : IsTcpPacket (.fatTcp p)) :
    Transplants (.fatTcp p) q ↔ NsFits p.transport.header donor := by
  obtain ⟨net, ⟨header⟩, payload, data⟩ := p
  obtain ⟨fixed, old, hparts, rfl⟩ := IsTcpLayout.exists_parts h
  have hfixed := hparts.fixed_length
  have hlength := transplanted_length hfixed hdonor.fixed_length
  have hset : setQtunnelProtoData (.fatTcp ⟨net, ⟨fixed ++ old⟩, payload, data⟩)
      ⟨schemeOf donor new⟩ = .ok (.fatTcp ⟨net,
        ⟨transplanted fixed donor ++ (new ++ old.drop new.length)⟩, payload, data⟩) := by
    have hwritten := (setScheme_transplanted hfixed hdonor.fixed_length hdonor.options_le old).1
    rw [TcpPacketLittleEndian.setTcpOptions_front hlength] at hwritten
    rw [setQtunnelProtoData, Ipv4TcpFatPacket.setQtunnelProtoData]
    dsimp only
    rw [hwritten]
    rfl
  have hports := ports_transplanted hfixed donor old (new ++ old.drop new.length)
  rw [transplants_iff_of_set hcollect hset hports.1 hports.2 rfl, collectProtoData_fatTcp,
    map_mk_eq_ok_iff, collectFrom_transplanted_iff hfixed hdonor.fixed_length hdonor.options_length,
    and_iff_left (List.prefix_append _ _), NsFits, NsFits]
  dsimp only
  rw [hparts.nsFlag_append]

/-- Views need room for the options too, or have them behind the header already. -/
theorem view_transplants {ip : Ipv4PacketView} {transport : TcpPacketView} {range : ℤ × ℤ}
    (h : IsTcpPacket (.views (.tcp ip transport range))) :
    Transplants (.views (.tcp ip transport range)) q ↔ NsFits transport.tcpHeader donor ∧
      (declaredOffset donor ≤ declaredOffset transport.tcpHeader ∨
        new <+: transport.tcpHeader.drop 20) := by
  obtain ⟨net, header, payload, behind, hnet, hheader, hmem, rfl, rfl⟩ := h
  obtain ⟨fixed, old, hparts, rfl⟩ := hheader.exists_parts
  have hfixed := hparts.fixed_length
  have hlength := transplanted_length hfixed hdonor.fixed_length
  have hroom : new.length ≤ old.length ↔ declaredOffset donor ≤ declaredOffset fixed := by
    have hnew := hdonor.options_length
    have hold := hparts.options_length
    omega
  have hold : ((fixed ++ old).length : ℤ) - 20 = old.length := by
    rw [List.length_append, hfixed]
    omega
  obtain ⟨options, size, hsize, hset, hprefix⟩ :=
    TcpPacketView.exists_setTcpOptions hlength old new (payload ++ behind)
  rw [← hold] at hset
  rw [hroom] at hprefix
  have hfront : ip.header.take ip.getSize.toNat = net := by
    rw [hnet, hmem, List.take_left]
  have hscheme := (setScheme_transplanted hfixed hdonor.fixed_length hdonor.options_le
    (old ++ (payload ++ behind))).2 ((fixed ++ old).length - 20)
  rw [hset] at hscheme
  have hall : setQtunnelProtoData (.views (.tcp ip
      ⟨fixed ++ (old ++ (payload ++ behind)), (fixed ++ old).length - 20⟩
      (net.length + (fixed ++ old).length, net.length + (fixed ++ old).length + payload.length)))
      ⟨schemeOf donor new⟩ = .ok (.views (.tcp
        { ip with header := net ++ (transplanted fixed donor ++ (options ++ (payload ++ behind))) }
        ⟨transplanted fixed donor ++ (options ++ (payload ++ behind)), size⟩
        (net.length + (fixed ++ old).length,
          net.length + (fixed ++ old).length + payload.length))) := by
    rw [setQtunnelProtoData, FullPacketView.setQtunnelProtoData, hscheme, ok_bind,
      FullPacketView.writeThrough, hfront]
    rfl
  have hports := ports_transplanted hfixed donor (old ++ (payload ++ behind))
    (options ++ (payload ++ behind))
  have hpayload : slice (net ++ (transplanted fixed donor ++ (options ++ (payload ++ behind))))
      (net.length + (fixed ++ old).length) (net.length + (fixed ++ old).length + payload.length) =
      .ok payload := by
    have hsame : (fixed ++ old).length = (transplanted fixed donor ++ options).length := by
      rw [List.length_append, List.length_append, hlength, hfixed, hsize]
    rw [← List.append_assoc (transplanted fixed donor), hsame]
    exact slice_append_append _ _ _ _ _ _ rfl rfl
  have hpayload' : slice ip.header
      (net.length + (fixed ++ old).length) (net.length + (fixed ++ old).length + payload.length) =
      .ok payload := by
    rw [hmem]
    exact slice_append_append _ _ _ _ _ _ rfl rfl
  rw [List.append_assoc, transplants_iff_of_set hcollect hall hports.1 hports.2
    (hpayload.trans hpayload'.symm), collectProtoData_view, map_mk_eq_ok_iff,
    collectFrom_transplanted_iff hfixed hdonor.fixed_length hdonor.options_length, hprefix, NsFits,
    NsFits]
  dsimp only
  rw [hparts.nsFlag_append, hparts.declaredOffset_append, ← hfixed, List.drop_left]

end Set

/-- Proto data transplants a header exactly when its flags can be restored and its options fit. -/
theorem transplants_iff (p q : FullPacketForm) (hp : p.IsTcpPacket) (hq : q.IsTcpPacket) :
    p.Transplants q ↔ p.TransplantFits q := by
  obtain ⟨donor, new, behind, hdonor, hmem, hcollect⟩ := hq.exists_donor
  have hns (mem : List UByte) : NsFits mem (donor ++ (new ++ behind)) ↔ NsFits mem donor := by
    rw [NsFits, hdonor.nsFlag_append, hdonor.getD_append (by decide), NsFits]
  rw [TransplantFits, hmem, hns]
  cases p with
  | fatTcp p => exact (fatTcp_transplants hdonor hcollect hp).trans (and_iff_left trivial).symm
  | fatUdp p => exact absurd hp id
  | views p =>
    cases p with
    | tcp ip transport payload =>
      rw [view_transplants hdonor hcollect hp, OptionsFit, hdonor.declaredOffset_append,
        hdonor.tcpOptions_eq, tcpMemoryOf]
    | udp ip transport payload => exact absurd hp id
    | dummy => exact absurd hp id

/-- A segment by value without payload. -/
def segment (header : List UByte) : FullPacketForm := .fatTcp ⟨⟨plainNet⟩, ⟨header⟩, [], []⟩

/-- Views of a segment with two bytes of payload. -/
def segmentView (header : List UByte) : FullPacketForm :=
  .views (.tcp ⟨plainNet ++ (header ++ ([104, 105] ++ [])), 0⟩
    ⟨header ++ ([104, 105] ++ []), header.length - 20⟩ (20 + header.length, 20 + header.length + 2))

theorem isTcpPacket_segmentView {header : List UByte} (h : IsTcpLayout header) :
    IsTcpPacket (segmentView header) :=
  ⟨plainNet, header, [104, 105], [], rfl, h, rfl, rfl, rfl⟩

theorem isTcpLayout_optionHeader : IsTcpLayout optionHeader where
  offset_ge := by decide
  length_eq := by decide

/-- A header without options goes over one that has a word of them. -/
theorem transplants_shorter :
    Transplants (segmentView optionHeader) (segment HeaderSetting.fiveWords) :=
  (transplants_iff (segmentView optionHeader) (segment HeaderSetting.fiveWords)
    (isTcpPacket_segmentView isTcpLayout_optionHeader) isTcpLayout_fiveWords).mpr
    ⟨.inl rfl, .inl (by decide)⟩

/-- NS of the old header comes out as SYN, and views without options take over a data offset
whose options they have no room for. -/
theorem transplants_fails :
    ¬Transplants (segment (HeaderSetting.fiveWords.set 12 0x51))
        (segment HeaderSetting.fiveWords) ∧
      ¬Transplants (segmentView HeaderSetting.fiveWords) (segment optionHeader) := by
  have hmarked : IsTcpPacket (segment (HeaderSetting.fiveWords.set 12 0x51)) :=
    (⟨by decide, by decide⟩ : IsTcpLayout _)
  have hshort : IsTcpParts HeaderSetting.fiveWords [] := ⟨rfl, by decide⟩
  have hlong : IsTcpParts (optionHeader.take 20) [2, 4, 5, 180] := ⟨rfl, by decide⟩
  constructor
  · intro h
    have hns : NsFits (HeaderSetting.fiveWords.set 12 0x51) HeaderSetting.fiveWords :=
      (fatTcp_transplants hshort rfl hmarked).mp h
    exact absurd hns (by decide)
  · intro h
    have hroom : declaredOffset (optionHeader.take 20) ≤
        declaredOffset (HeaderSetting.fiveWords ++ ([104, 105] ++ [])) ∨
        [2, 4, 5, 180] <+: (HeaderSetting.fiveWords ++ ([104, 105] ++ [])).drop 20 :=
      ((view_transplants hlong rfl (isTcpPacket_segmentView isTcpLayout_fiveWords)).mp h).2
    exact absurd hroom (by decide)

end FullPacketForm

end QVPN
