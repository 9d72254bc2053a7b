import QVPN.Properties.PacketBoundaries
import QVPN.Properties.PacketLengths
import QVPN.Properties.UdpForms

/-!
# A packet with a new payload

The headers of a packet are copied, the size of the new payload is handed to the transport
header, and lengths and checksums are recalculated. For TCP the size is or-ed into the data
offset as a number of words, which leaves the header as it was only when the offset has those
bits already. For UDP it is overwritten at once.
-/

namespace QVPN

open BigEndian Checksum Memory Lens

/-- The parts of a packet, as its class returns them. -/
structure PacketParts where
  net : List UByte
  transport : List UByte
  payload : List UByte
  deriving DecidableEq, Repr

/-- An IPv4 header without options. -/
structure IsPlainIpv4 (net : List UByte) : Prop where
  layout : IsIpv4Layout net
  words_eq : declaredWords net = 5

namespace FullPacketForm

def parts : FullPacketForm → Except Fault PacketParts
  | .fatTcp p => .ok ⟨p.net.toBytes, p.transport.toBytes, p.payload⟩
  | .fatUdp p => .ok ⟨p.net.toBytes, p.transport.toBytes, p.payload⟩
  | .views (.tcp ip transport payload) => do
    let net ← ip.toNetBytes
    let header ← transport.toTransportBytes
    let data ← FullPacketView.getPayload ip.header (.tcp ip transport payload)
    return ⟨net, header, data⟩
  | .views (.udp ip transport payload) => do
    let net ← ip.toNetBytes
    let header ← transport.toTransportBytes
    let data ← FullPacketView.getPayload ip.header (.udp ip transport payload)
    return ⟨net, header, data⟩
  | .views .dummy => .ok ⟨[], [], []⟩

def newPacketByPayload : FullPacketForm → List UByte → Except Fault FullPacketForm
  | .fatTcp p, payload => (p.newPacketByPayload payload).map .fatTcp
  | .fatUdp p, payload => (p.newPacketByPayload payload).map .fatUdp
  | .views p, payload => (p.newPacketByPayload payload).map .views

/-- A packet of the same class, made from the bytes. -/
def parsedBack : FullPacketForm → Except Fault FullPacketForm
  | .fatTcp p => (Ipv4TcpFatPacket.ofBytes p.bytes.1 p.bytes.1.length).map .fatTcp
  | .fatUdp p => (Ipv4UdpFatPacket.ofBytes p.bytes.1 p.bytes.1.length).map .fatUdp
  | .views (.tcp ip transport payload) => do
    let bytes ← FullPacketView.bytes ip.header (.tcp ip transport payload)
    (FullPacketView.ipv4Tcp bytes bytes.length).map .views
  | .views (.udp ip transport payload) => do
    let bytes ← FullPacketView.bytes ip.header (.udp ip transport payload)
    (FullPacketView.ipv4Udp bytes bytes.length).map .views
  | .views .dummy => .ok (.views .dummy)

/-- A packet without IP options whose TCP header has the size it declares. Views may have memory
behind the packet. -/
def Plain : FullPacketForm → Prop
  | .fatTcp p => IsPlainIpv4 p.net.header ∧ IsTcpLayout p.transport.header
  | .fatUdp p => IsPlainIpv4 p.net.header ∧ 8 ≤ p.transport.header.length
  | .views (.tcp ip transport payload) => ∃ net header data behind : List UByte,
      IsPlainIpv4 net ∧ IsTcpLayout header ∧ ip = ⟨net ++ (header ++ (data ++ behind)), 0⟩ ∧
      transport = ⟨header ++ (data ++ behind), header.length - 20⟩ ∧
      payload = ((20 + header.length : ℤ), (20 + header.length + data.length : ℤ))
  | .views (.udp ip transport payload) => ∃ net header data behind : List UByte,
      IsPlainIpv4 net ∧ header.length = 8 ∧ ip = ⟨net ++ (header ++ (data ++ behind)), 0⟩ ∧
      transport = ⟨header ++ (data ++ behind)⟩ ∧ payload = ((28 : ℤ), (28 + data.length : ℤ))
  | .views .dummy => False

/-- The bytes in front of the payload. -/
def headerSize : FullPacketForm → ℤ
  | .fatTcp p => p.net.header.length + p.transport.header.length
  | .fatUdp p => p.net.header.length + p.transport.header.length
  | .views (.tcp _ _ payload) => payload.1
  | .views (.udp _ _ payload) => payload.1
  | .views .dummy => 0

/-- Total length and checksum of an IPv4 header. -/
def netFields (i : ℕ) : UByte := if i = 2 ∨ i = 3 ∨ i = 10 ∨ i = 11 then 0xFF else 0

/-- Length and checksum of a UDP header, the checksum of a TCP header. -/
def transportFields : FullPacketForm → ℕ → UByte
  | .fatTcp _, i => wordMask 16 i
  | .fatUdp _, i => if i = 4 ∨ i = 5 ∨ i = 6 ∨ i = 7 then 0xFF else 0
  | .views (.tcp _ _ _), i => wordMask 16 i
  | .views _, i => if i = 4 ∨ i = 5 ∨ i = 6 ∨ i = 7 then 0xFF else 0

/-- The headers are those of the original up to lengths and checksums, the payload is the new
one, and the bytes parse back into the same headers and payload. -/
def KeepsHeaders (p : FullPacketForm) (payload : List UByte) (q : FullPacketForm) : Prop :=
  ∃ old new, p.parts = .ok old ∧ q.parts = .ok new ∧ KeepsOutside netFields old.net new.net ∧
    KeepsOutside p.transportFields old.transport new.transport ∧ new.payload = payload ∧
    ∃ r, q.parsedBack = .ok r ∧ r.parts = .ok new

/-- A packet with the new payload is made and keeps the headers. -/
def Replaces (p : FullPacketForm) (payload : List UByte) : Prop :=
  ∃ q, p.newPacketByPayload payload = .ok q ∧ p.KeepsHeaders payload q

/-- Its length fields hold as well. -/
def ReplacesWell (p : FullPacketForm) (payload : List UByte) : Prop :=
  ∃ q, p.newPacketByPayload payload = .ok q ∧ p.KeepsHeaders payload q ∧ q.LengthsHold

/-- A data offset that has the bits of a payload's size in words already. -/
def OffsetCovers (header : List UByte) (n : ℕ) : Prop :=
  header.getD 12 0 >>> 4 ||| (UInt16.ofNat n / 4).toUInt8 &&& (0xF : UByte) =
    header.getD 12 0 >>> 4

/-- The payloads with which a packet keeps its headers. -/
def Fits (p : FullPacketForm) (payload : List UByte) : Prop :=
  match p with
  | .fatTcp p => OffsetCovers p.transport.header payload.length
  | .fatUdp p => p.transport.header.length % 2 = 0 ∧ payload = []
  | .views (.tcp _ transport _) => OffsetCovers transport.tcpHeader payload.length
  | .views _ => True

/-- The payloads with which the lengths are right as well. -/
def FitsWell (p : FullPacketForm) (payload : List UByte) : Prop :=
  match p with
  | .fatTcp p => OffsetCovers p.transport.header payload.length
  | .fatUdp p => p.transport.header.length % 2 = 0 ∧ payload = []
  | .views (.tcp _ transport _) => OffsetCovers transport.tcpHeader payload.length
  | .views _ => payload = []

end FullPacketForm

section Bytes

/-- A byte is made up of its two halves. -/
theorem halves (b : UByte) : (b >>> 4) <<< 4 ||| b &&& (0xF : UByte) = b := by
  revert b
  exact forall_byte (by decide +kernel)

/-- Words that are or-ed into the upper half change nothing exactly when it covers them. -/
theorem or_shifted_eq_iff (b w : UByte) :
    b ||| w <<< 4 = b ↔ b >>> 4 ||| w &&& (0xF : UByte) = b >>> 4 := by
  have hhigh : (b ||| w <<< 4) >>> 4 = b >>> 4 ||| w &&& (0xF : UByte) := by
    rw [UInt8.shiftRight_or, shifted_twice]
  have hlow : (b ||| w <<< 4) &&& (0xF : UByte) = b &&& (0xF : UByte) := by
    rw [or_and, shifted_low, UInt8.or_zero]
  constructor
  · intro heq
    rw [← hhigh, heq]
  · intro hcovers
    rw [← halves (b ||| w <<< 4), hhigh, hcovers, hlow, halves]

/-- Setting an element to what it is changes nothing. -/
theorem set_getD_self {xs : List UByte} {i : ℕ} (h : i < xs.length) :
    xs.set i (xs.getD i 0) = xs := by
  rw [List.getD_eq_getElem?_getD, List.getElem?_eq_getElem h, Option.getD_some,
    List.set_getElem_self]

end Bytes

section Headers

theorem IsPlainIpv4.length_eq {net : List UByte} (h : IsPlainIpv4 net) : net.length = 20 := by
  rw [h.layout.length_eq, h.words_eq]

/-- No field behind the first byte changes the size of a header. -/
theorem IsPlainIpv4.setWord {net : List UByte} (h : IsPlainIpv4 net) {i : ℕ} (hi : 0 < i)
    (v : UShort) : IsPlainIpv4 (setWord net i v) := by
  have hwords : declaredWords (Lens.setWord net i v) = declaredWords net := by
    rw [declaredWords, setWord_getD_ne (by omega), declaredWords]
  have hlayout : IsIpv4Layout (Lens.setWord net i v) := by
    refine ⟨by rw [hwords]; exact h.layout.words_ge, ?_⟩
    rw [hwords, setWord_length]
    exact h.layout.length_eq
  exact ⟨hlayout, hwords.trans h.words_eq⟩

/-- A header with the data offset and the size of another one is laid out like it. -/
theorem IsTcpLayout.of_same {header header' : List UByte} (h : IsTcpLayout header)
    (hlength : header'.length = header.length) (hat : header'.getD 12 0 = header.getD 12 0) :
    IsTcpLayout header' := by
  have hoffset : declaredOffset header' = declaredOffset header := by
    rw [declaredOffset, hat, declaredOffset]
  refine ⟨by rw [hoffset]; exact h.offset_ge, ?_⟩
  rw [hlength, hoffset]
  exact h.length_eq

/-- The size of a header has no bits that its data offset lacks. -/
theorem IsTcpLayout.orredWords_size {header : List UByte} (h : IsTcpLayout header) (n : UShort) :
    orredWords (orredWords header 12 n) 12 (UInt16.ofNat header.length) =
      orredWords header 12 n := by
  have hlength := h.length_eq
  have hge := h.offset_ge
  have hle : declaredOffset header ≤ 15 := highNibble_le _
  have hself : ∀ b : UByte, b ||| (b >>> 4) <<< 4 = b := forall_byte (by decide +kernel)
  have hwords : (UInt16.ofNat header.length / 4).toUInt8 = header.getD 12 0 >>> 4 := by
    rw [← UInt8.toNat_inj, UInt16.toNat_toUInt8, UInt16.toNat_div, UInt16.toNat_ofNat']
    change header.length % 65536 / 4 % 256 = declaredOffset header
    omega
  have hat : (orredWords header 12 n).getD 12 0 = header.getD 12 0 ||| (n / 4).toUInt8 <<< 4 :=
    getD_set_self (by omega) _ _
  have hcovered : (orredWords header 12 n).getD 12 0 ||| (header.getD 12 0 >>> 4) <<< 4 =
      (orredWords header 12 n).getD 12 0 := by
    rw [hat, UInt8.or_assoc, UInt8.or_comm ((n / 4).toUInt8 <<< 4), ← UInt8.or_assoc, hself]
  rw [orredWords, hwords, hcovered, set_getD_self (by rw [orredWords_length]; omega)]

/-- The IPv4 header with a new total length and checksum. -/
def newNetHeader (net : List UByte) (total sum : UShort) : List UByte :=
  setWord (setWord net 2 total) 10 sum

theorem IsPlainIpv4.newNetHeader {net : List UByte} (h : IsPlainIpv4 net) (total sum : UShort) :
    IsPlainIpv4 (newNetHeader net total sum) :=
  (h.setWord (by decide) total).setWord (by decide) sum

theorem newNetHeader_keeps (net : List UByte) (total sum : UShort) :
    KeepsOutside FullPacketForm.netFields net (newNetHeader net total sum) :=
  (KeepsOutside.of_setWord rfl rfl total).trans (KeepsOutside.of_setWord rfl rfl sum)

/-- The TCP header into whose data offset a payload's size was or-ed, with a new checksum. -/
def newTcpHeader (header : List UByte) (n : ℕ) (check : UShort) : List UByte :=
  setWord (orredWords header 12 (UInt16.ofNat n)) 16 check

@[simp] theorem newTcpHeader_length (header : List UByte) (n : ℕ) (check : UShort) :
    (newTcpHeader header n check).length = header.length := by
  rw [newTcpHeader, setWord_length, orredWords_length]

/-- The data offset of the new header. -/
theorem newTcpHeader_offset {header : List UByte} (h : 12 < header.length) (n : ℕ)
    (check : UShort) : (newTcpHeader header n check).getD 12 0 =
      header.getD 12 0 ||| (UInt16.ofNat n / 4).toUInt8 <<< 4 := by
  rw [newTcpHeader, setWord_getD_ne (by decide)]
  exact getD_set_self h _ _

/-- Only the checksum changes when the data offset covers the size. -/
theorem newTcpHeader_keeps_iff {header : List UByte} (h : 12 < header.length) (n : ℕ)
    (check : UShort) : KeepsOutside (wordMask 16) header (newTcpHeader header n check) ↔
      FullPacketForm.OffsetCovers header n := by
  rw [FullPacketForm.OffsetCovers, ← or_shifted_eq_iff, ← newTcpHeader_offset h n check]
  constructor
  · intro hkeeps
    have hat := hkeeps.2 12
    change _ &&& ~~~(0 : UByte) = _ &&& ~~~(0 : UByte) at hat
    rw [show ~~~(0 : UByte) = -1 from rfl, UInt8.and_neg_one, UInt8.and_neg_one] at hat
    exact hat
  · intro hat
    rw [newTcpHeader_offset h] at hat
    have hsame : orredWords header 12 (UInt16.ofNat n) = header := by
      rw [orredWords, hat, set_getD_self h]
    rw [newTcpHeader, hsame]
    exact KeepsOutside.of_setWord rfl rfl check

end Headers

/-- Both classes store some checksum in the IPv4 header. -/
theorem recalculateIpChecksum_setWord {net : List UByte} (h : net.length = 20) :
    (∃ sum, Ipv4PacketLittleEndian.recalculateIpChecksum ⟨net⟩ = .ok ⟨setWord net 10 sum⟩) ∧
      ∀ behind, ∃ sum, Ipv4PacketView.recalculateIpChecksum ⟨net ++ behind, 0⟩ =
        .ok ⟨setWord net 10 sum ++ behind, 0⟩ := by
  have hcopy := Ipv4PacketLittleEndian.recalculateIpChecksum_eq
    (show net.length % 2 = 0 by omega) (by omega)
  rw [setWord_eq (by omega)] at hcopy
  refine ⟨⟨_, hcopy⟩, fun behind => ?_⟩
  have hview := Ipv4PacketView.recalculateIpChecksum_plain h behind
  rw [setWord_eq (by omega)] at hview
  exact ⟨_, hview⟩

section Fat

variable {net header : List UByte}

/-- The checksums of a packet by value are stored in its headers. -/
theorem Ipv4TcpFatPacket.recalculateChecksums_eq (payload data : List UByte)
    (hnet : net.length = 20) (heven : header.length % 2 = 0) (hlength : 18 ≤ header.length) :
    ∃ sum check, recalculateChecksums ⟨⟨net⟩, ⟨header⟩, payload, data⟩ =
      .ok ⟨⟨setWord net 10 sum⟩, ⟨setWord header 16 check⟩, payload, data⟩ := by
  obtain ⟨sum, hsum⟩ := (recalculateIpChecksum_setWord hnet).1
  obtain ⟨pseudo, hpseudo, hfat, -⟩ := pseudoHeader_agree
    ((setWord_length net 10 sum).trans hnet) []
  have hcheck : TcpPacketLittleEndian.recalculateTransportChecksum ⟨header⟩ pseudo payload = _ :=
    TcpPacketLittleEndian.recalculateTransportChecksum_eq hpseudo heven hlength
  rw [setWord_eq (by omega)] at hcheck
  refine ⟨sum, complement (segmentSum pseudo header payload 16), ?_⟩
  rw [recalculateChecksums]
  dsimp only
  rw [hsum, ok_bind, hfat, ok_bind, hcheck]
  rfl

/-- A UDP header of an odd size is read past its end. -/
theorem Ipv4UdpFatPacket.recalculateChecksums_eq (payload data : List UByte)
    (hnet : net.length = 20) (hlength : 8 ≤ header.length) :
    (header.length % 2 = 0 → ∃ sum check,
      recalculateChecksums ⟨⟨net⟩, ⟨header⟩, payload, data⟩ =
        .ok ⟨⟨setWord net 10 sum⟩, ⟨setWord header 6 check⟩, payload, data⟩) ∧
      ∀ q, recalculateChecksums ⟨⟨net⟩, ⟨header⟩, payload, data⟩ = .ok q →
        header.length % 2 = 0 := by
  obtain ⟨sum, hsum⟩ := (recalculateIpChecksum_setWord hnet).1
  obtain ⟨pseudo, hpseudo, hfat, -⟩ := pseudoHeader_agree
    ((setWord_length net 10 sum).trans hnet) []
  constructor
  · intro heven
    have hcheck : UdpPacketLittleEndian.recalculateTransportChecksum ⟨header⟩ pseudo payload = _ :=
      UdpPacketLittleEndian.recalculateTransportChecksum_eq hpseudo heven hlength
    rw [setWord_eq (by omega)] at hcheck
    refine ⟨sum, complement (segmentSum pseudo header payload 6), ?_⟩
    rw [recalculateChecksums]
    dsimp only
    rw [hsum, ok_bind, hfat, ok_bind, hcheck]
    rfl
  · intro q hq
    obtain ⟨_, _, hq⟩ := bind_eq_ok_iff.mp hq
    obtain ⟨_, _, hq⟩ := bind_eq_ok_iff.mp hq
    obtain ⟨_, hcheck, -⟩ := bind_eq_ok_iff.mp hq
    obtain ⟨cleared, hcleared, hcheck⟩ := bind_eq_ok_iff.mp hcheck
    obtain ⟨_, -, hcheck⟩ := bind_eq_ok_iff.mp hcheck
    obtain ⟨_, hwords, -⟩ := bind_eq_ok_iff.mp hcheck
    have hsame : cleared.length = header.length := write16_length hcleared
    by_contra hodd
    -- the last word starts at the last byte
    have hlast : header.length - 1 ∈ wordPositions cleared.length := by
      apply List.mem_map.mpr
      exact ⟨(header.length - 1) / 2, List.mem_range.mpr (by omega), by omega⟩
    have hread := sumWords_lt hwords _ hlast
    omega

/-- A packet by value carrying TCP gets the new header, with some checksums. -/
theorem Ipv4TcpFatPacket.newPacketByPayload_eq (hnet : IsPlainIpv4 net) (h : IsTcpLayout header)
    (old data payload : List UByte) : ∃ sum check,
      newPacketByPayload ⟨⟨net⟩, ⟨header⟩, old, data⟩ payload = .ok
        ⟨⟨newNetHeader net (UInt16.ofNat (20 + header.length + payload.length)) sum⟩,
          ⟨newTcpHeader header payload.length check⟩, payload, []⟩ := by
  have hlength := h.length_eq
  have hge := h.offset_ge
  have hparts : ofParts net header payload = .ok ⟨⟨net⟩, ⟨header⟩, payload, []⟩ := by
    have hcopy := hnet.layout.parsePacket_object []
    have hsecond := h.parsePacket_object []
    rw [List.append_nil] at hcopy hsecond
    rw [ofParts, hcopy, ok_bind, hsecond]
    rfl
  have hlengths : recalculateLengths ⟨⟨net⟩, ⟨orredWords header 12 (UInt16.ofNat payload.length)⟩,
      payload, []⟩ = .ok ⟨⟨setWord net 2 (UInt16.ofNat (20 + header.length + payload.length))⟩,
        ⟨orredWords header 12 (UInt16.ofNat payload.length)⟩, payload, []⟩ := by
    rw [recalculateLengths_eq hnet.length_eq.ge (by rw [orredWords_length]; omega), withLengths,
      hnet.length_eq, orredWords_length, h.orredWords_size]
  have hsame := orredWords_length header 12 (UInt16.ofNat payload.length)
  obtain ⟨sum, check, hsums⟩ := recalculateChecksums_eq payload []
    ((setWord_length net 2 (UInt16.ofNat (20 + header.length + payload.length))).trans
      hnet.length_eq)
    (show (orredWords header 12 (UInt16.ofNat payload.length)).length % 2 = 0 by omega) (by omega)
  refine ⟨sum, check, ?_⟩
  rw [newPacketByPayload]
  change (ofParts net header payload >>= _) = _
  rw [hparts, ok_bind,
    TcpPacketLittleEndian.setTransportLength_eq (show 20 ≤ header.length by omega), ok_bind,
    hlengths, ok_bind, hsums]
  rfl

/-- The UDP header with the size of its vector and a new checksum. -/
def newUdpHeader (header : List UByte) (size check : UShort) : List UByte :=
  setWord (setWord header 4 size) 6 check

@[simp] theorem newUdpHeader_length (header : List UByte) (size check : UShort) :
    (newUdpHeader header size check).length = header.length := by
  rw [newUdpHeader, setWord_length, setWord_length]

/-- A packet by value carrying UDP gets the new header, unless that has an odd size. -/
theorem Ipv4UdpFatPacket.newPacketByPayload_eq (hnet : IsPlainIpv4 net)
    (hlength : 8 ≤ header.length) (old data payload : List UByte) :
    (header.length % 2 = 0 → ∃ sum check,
      newPacketByPayload ⟨⟨net⟩, ⟨header⟩, old, data⟩ payload = .ok
        ⟨⟨newNetHeader net (UInt16.ofNat (20 + header.length + payload.length)) sum⟩,
          ⟨newUdpHeader header (UInt16.ofNat header.length) check⟩, payload, []⟩) ∧
      ∀ q, newPacketByPayload ⟨⟨net⟩, ⟨header⟩, old, data⟩ payload = .ok q →
        header.length % 2 = 0 := by
  have hparts : ofParts net header payload = .ok ⟨⟨net⟩, ⟨header⟩, payload, []⟩ := by
    have hcopy := hnet.layout.parsePacket_object []
    rw [List.append_nil] at hcopy
    rw [ofParts, hcopy, ok_bind, UdpPacketLittleEndian.parsePacket, slice_all _ _ rfl]
    rfl
  have hlengths : recalculateLengths ⟨⟨net⟩, ⟨setWord header 4 (UInt16.ofNat payload.length)⟩,
      payload, []⟩ = .ok ⟨⟨setWord net 2 (UInt16.ofNat (20 + header.length + payload.length))⟩,
        ⟨setWord header 4 (UInt16.ofNat header.length)⟩, payload, []⟩ := by
    rw [recalculateLengths_eq hnet.length_eq.ge (by rw [setWord_length]; exact hlength),
      withLengths, hnet.length_eq, setWord_length, setWord_setWord]
  have hsame := setWord_length header 4 (UInt16.ofNat header.length)
  have hsums := recalculateChecksums_eq payload []
    ((setWord_length net 2 (UInt16.ofNat (20 + header.length + payload.length))).trans
      hnet.length_eq) (hlength.trans_eq hsame.symm)
  rw [hsame] at hsums
  have hrun : newPacketByPayload ⟨⟨net⟩, ⟨header⟩, old, data⟩ payload = recalculateChecksums
      ⟨⟨setWord net 2 (UInt16.ofNat (20 + header.length + payload.length))⟩,
        ⟨setWord header 4 (UInt16.ofNat header.length)⟩, payload, []⟩ := by
    rw [newPacketByPayload]
    change (ofParts net header payload >>= _) = _
    rw [hparts, ok_bind,
      UdpPacketLittleEndian.setTransportLength_eq (show 8 ≤ header.length from hlength), ok_bind,
      hlengths, ok_bind]
  rw [hrun]
  exact hsums

end Fat

section Views

/-- Words or-ed into a front leave what follows alone. -/
theorem orredWords_append {header : List UByte} {i : ℕ} (h : i < header.length) (rest : List UByte)
    (n : UShort) : orredWords (header ++ rest) i n = orredWords header i n ++ rest := by
  have hat : (header ++ rest).getD i 0 = header.getD i 0 := by
    rw [List.getD_eq_getElem?_getD, List.getElem?_append_left h, List.getD_eq_getElem?_getD]
  rw [orredWords, hat, List.set_append_left _ _ h, orredWords]

theorem Ipv4PacketView.getSize_plain (mem : List UByte) :
    (Ipv4PacketView.getSize ⟨mem, 0⟩).toNat = 20 := rfl

variable {net header : List UByte} (hnet : net.length = 20)
include hnet

/-- Writing behind a plain header keeps the header. -/
theorem FullPacketView.writeThrough_plain (old new : List UByte) :
    writeThrough ⟨net ++ old, 0⟩ new = ⟨net ++ new, 0⟩ := by
  rw [writeThrough]
  congr 1
  change (net ++ old).take 20 ++ new = _
  rw [List.take_left' hnet]

theorem FullPacketView.setTransportLength_tcp (h : 20 ≤ header.length) (rest : List UByte)
    (size : ℤ) (payload : ℤ × ℤ) (n : UShort) :
    setTransportLength (.tcp ⟨net ++ (header ++ rest), 0⟩ ⟨header ++ rest, size⟩ payload) n =
      .ok (.tcp ⟨net ++ (orredWords header 12 n ++ rest), 0⟩ ⟨orredWords header 12 n ++ rest, size⟩
        payload) := by
  have hlong : 20 ≤ (header ++ rest).length := by
    rw [List.length_append]
    omega
  rw [setTransportLength, TcpPacketView.setTransportLength_eq hlong, ok_bind,
    writeThrough_plain hnet, orredWords_append (by omega)]
  rfl

theorem FullPacketView.setTransportLength_udp (h : 8 ≤ header.length) (rest : List UByte)
    (payload : ℤ × ℤ) (n : UShort) :
    setTransportLength (.udp ⟨net ++ (header ++ rest), 0⟩ ⟨header ++ rest⟩ payload) n =
      .ok (.udp ⟨net ++ (setWord header 4 n ++ rest), 0⟩ ⟨setWord header 4 n ++ rest⟩ payload) := by
  have hlong : 8 ≤ (header ++ rest).length := by
    rw [List.length_append]
    omega
  rw [setTransportLength, UdpPacketView.setTransportLength_eq hlong, ok_bind,
    writeThrough_plain hnet, setWord_append (by omega)]
  rfl

/-- Over the parts of a packet the lengths go into its headers. -/
theorem tcpMemory_append (h : 12 < header.length) (rest : List UByte) (total size : UShort) :
    tcpMemory (net ++ (header ++ rest)) 20 total size =
      setWord net 2 total ++ (orredWords header 12 size ++ rest) := by
  have hfront := (setWord_length net 2 total).trans hnet
  rw [tcpMemory, setWord_append (by omega), ← take_append_orredWords, List.take_left' hfront,
    List.drop_left' hfront, orredWords_append h]

theorem udpMemory_append (h : 8 ≤ header.length) (rest : List UByte) (total size : UShort) :
    udpMemory (net ++ (header ++ rest)) 20 total size =
      setWord net 2 total ++ (setWord header 4 size ++ rest) := by
  have hfront := (setWord_length net 2 total).trans hnet
  rw [udpMemory, setWord_append (by omega), ← take_append_setWord, List.take_left' hfront,
    List.drop_left' hfront, setWord_append (by omega)]

theorem FullPacketView.recalculateLengths_plain_tcp (h : 20 ≤ header.length) (rest : List UByte)
    (transport : List UByte) (n : ℕ) :
    recalculateLengths (.tcp ⟨net ++ (header ++ rest), 0⟩ ⟨transport, header.length - 20⟩
        (20 + header.length, 20 + header.length + n)) =
      .ok (.tcp ⟨setWord net 2 (UInt16.ofNat (20 + header.length + n)) ++
          (orredWords header 12 (UInt16.ofNat header.length) ++ rest), 0⟩
        ⟨orredWords header 12 (UInt16.ofNat header.length) ++ rest, header.length - 20⟩
        (20 + header.length, 20 + header.length + n)) := by
  have htotal : UInt16.ofInt (20 + 0 + (20 + ((header.length : ℤ) - 20)) +
      ((20 + header.length + n : ℤ) - (20 + header.length : ℤ))) =
      UInt16.ofNat (20 + header.length + n) :=
    ofInt_eq_ofNat (by omega)
  have hsize : UInt16.ofInt (20 + ((header.length : ℤ) - 20)) = UInt16.ofNat header.length :=
    ofInt_eq_ofNat (by omega)
  have hlong : 40 ≤ (net ++ (header ++ rest)).length := by
    rw [List.length_append, List.length_append]
    omega
  have hfront := (setWord_length net 2 (UInt16.ofNat (20 + header.length + n))).trans hnet
  have hn : ((20 : ℕ) : ℤ) =
      20 + (Ipv4PacketView.mk (net ++ (header ++ rest)) 0).addHeaderSize := rfl
  -- the values of the fields do not matter, and would be computed
  generalize UInt16.ofNat (20 + header.length + n) = total at *
  generalize UInt16.ofNat header.length = size at *
  have hrun : recalculateLengths (.tcp ⟨net ++ (header ++ rest), 0⟩
      ⟨transport, header.length - 20⟩ (20 + header.length, 20 + header.length + n)) = _ :=
    recalculateLengths_tcp hn (by decide) htotal hsize
      (show 20 ≤ (net ++ (header ++ rest)).length by omega)
      (show 40 ≤ (net ++ (header ++ rest)).length by omega)
  rw [tcpMemory_append hnet (by omega), List.drop_left' hfront] at hrun
  exact hrun

theorem FullPacketView.recalculateLengths_plain_udp (h : 8 ≤ header.length) (rest : List UByte)
    (transport : List UByte) (n : ℕ) :
    recalculateLengths (.udp ⟨net ++ (header ++ rest), 0⟩ ⟨transport⟩ (28, 28 + n)) =
      .ok (.udp ⟨setWord net 2 (UInt16.ofNat (28 + n)) ++ (setWord header 4 8 ++ rest), 0⟩
        ⟨setWord header 4 8 ++ rest⟩ (28, 28 + n)) := by
  have htotal : UInt16.ofInt (20 + 0 + 8 + ((28 + n : ℤ) - 28)) = UInt16.ofNat (28 + n) :=
    ofInt_eq_ofNat (by omega)
  have hlong : 28 ≤ (net ++ (header ++ rest)).length := by
    rw [List.length_append, List.length_append]
    omega
  have hfront := (setWord_length net 2 (UInt16.ofNat (28 + n))).trans hnet
  have hn : ((20 : ℕ) : ℤ) =
      20 + (Ipv4PacketView.mk (net ++ (header ++ rest)) 0).addHeaderSize := rfl
  generalize UInt16.ofNat (28 + n) = total at *
  have hrun : recalculateLengths (.udp ⟨net ++ (header ++ rest), 0⟩ ⟨transport⟩ (28, 28 + n)) =
      _ :=
    recalculateLengths_udp hn (by decide) htotal
      (show 20 ≤ (net ++ (header ++ rest)).length by omega)
      (show 28 ≤ (net ++ (header ++ rest)).length by omega)
  rw [udpMemory_append hnet h, List.drop_left' hfront] at hrun
  exact hrun

/-- The checksums go into the headers in front of the payload. -/
theorem FullPacketView.recalculateChecksums_plain_tcp (heven : header.length % 2 = 0)
    (h : 20 ≤ header.length) (rest payload : List UByte) (transport : List UByte) :
    ∃ sum check, recalculateChecksums (.tcp ⟨net ++ (header ++ (payload ++ rest)), 0⟩
        ⟨transport, header.length - 20⟩
        (20 + header.length, 20 + header.length + payload.length)) =
      .ok (.tcp ⟨setWord net 10 sum ++ (setWord header 16 check ++ (payload ++ rest)), 0⟩
        ⟨setWord header 16 check ++ (payload ++ rest), header.length - 20⟩
        (20 + header.length, 20 + header.length + payload.length)) := by
  obtain ⟨sum, hsum⟩ := (recalculateIpChecksum_setWord hnet).2 (header ++ (payload ++ rest))
  have hfront := (setWord_length net 10 sum).trans hnet
  obtain ⟨pseudo, hpseudo, -, hview⟩ := pseudoHeader_agree hfront (header ++ (payload ++ rest))
  have hdata : slice (setWord net 10 sum ++ (header ++ (payload ++ rest)))
      (20 + header.length) (20 + header.length + payload.length) = .ok payload :=
    slice_append_append _ _ _ _ _ _ (by rw [hfront]; rfl) rfl
  have hcheck : TcpPacketView.recalculateTransportChecksum
      ⟨header ++ (payload ++ rest), header.length - 20⟩ pseudo payload = _ :=
    TcpPacketView.recalculateTransportChecksum_eq hpseudo rfl heven h (payload ++ rest)
  rw [setWord_eq (by omega)] at hcheck
  refine ⟨sum, complement (segmentSum pseudo header payload 16), ?_⟩
  rw [recalculateChecksums, hsum, ok_bind]
  dsimp only
  rw [hdata, ok_bind, hview, ok_bind, Ipv4PacketView.getSize_plain, List.drop_left' hfront, hcheck,
    ok_bind]
  dsimp only
  rw [List.take_left' hfront]
  rfl

theorem FullPacketView.recalculateChecksums_plain_udp (h : header.length = 8)
    (rest payload : List UByte) (transport : List UByte) :
    ∃ sum check, recalculateChecksums (.udp ⟨net ++ (header ++ (payload ++ rest)), 0⟩
        ⟨transport⟩ (28, 28 + payload.length)) =
      .ok (.udp ⟨setWord net 10 sum ++ (setWord header 6 check ++ (payload ++ rest)), 0⟩
        ⟨setWord header 6 check ++ (payload ++ rest)⟩ (28, 28 + payload.length)) := by
  obtain ⟨sum, hsum⟩ := (recalculateIpChecksum_setWord hnet).2 (header ++ (payload ++ rest))
  have hfront := (setWord_length net 10 sum).trans hnet
  obtain ⟨pseudo, hpseudo, -, hview⟩ := pseudoHeader_agree hfront (header ++ (payload ++ rest))
  have hdata : slice (setWord net 10 sum ++ (header ++ (payload ++ rest))) 28
      (28 + payload.length) = .ok payload :=
    slice_append_append _ _ _ _ _ _ (by rw [hfront, h]; rfl) rfl
  have hcheck : UdpPacketView.recalculateTransportChecksum ⟨header ++ (payload ++ rest)⟩ pseudo
      payload = _ :=
    UdpPacketView.recalculateTransportChecksum_eq hpseudo h (payload ++ rest)
  rw [setWord_eq (by omega)] at hcheck
  refine ⟨sum, complement (segmentSum pseudo header payload 6), ?_⟩
  rw [recalculateChecksums, hsum, ok_bind]
  dsimp only
  rw [hdata, ok_bind, hview, ok_bind, Ipv4PacketView.getSize_plain, List.drop_left' hfront, hcheck,
    ok_bind]
  dsimp only
  rw [List.take_left' hfront]
  rfl

end Views

section Parts

variable {net header : List UByte} (hnet : IsPlainIpv4 net)
include hnet

theorem IsPlainIpv4.toNetBytes (behind : List UByte) :
    Ipv4PacketView.toNetBytes ⟨net ++ behind, 0⟩ = .ok net :=
  slice_prefix _ _ _ (by rw [hnet.length_eq]; rfl)

omit hnet in
theorem toTransportBytes_tcp (behind : List UByte) :
    TcpPacketView.toTransportBytes ⟨header ++ behind, header.length - 20⟩ = .ok header :=
  slice_prefix _ _ _ (by dsimp only; omega)

omit hnet in
theorem toTransportBytes_udp (h : header.length = 8) (behind : List UByte) :
    UdpPacketView.toTransportBytes ⟨header ++ behind⟩ = .ok header :=
  slice_prefix _ _ _ (by rw [h]; rfl)

/-- A packet that owns its bytes consists of the parts it was made from. -/
theorem FullPacketObject.ofTcp_plain (h : IsTcpLayout header) (payload : List UByte) :
    ofTcp net header payload = .ok (.tcp (net ++ header ++ payload)) ∧
      view (.tcp (net ++ header ++ payload)) =
        .ok (.tcp ⟨net ++ (header ++ payload), 0⟩ ⟨header ++ payload, header.length - 20⟩
          (20 + header.length, 20 + header.length + payload.length)) := by
  have hcopy := hnet.layout.parsePacket_plain hnet.words_eq []
  have hsecond := h.parsePacket_view []
  rw [List.append_nil] at hcopy hsecond
  have hview := FullPacketView.ipv4Tcp_plain hnet.layout hnet.words_eq h payload
    (net ++ header ++ payload).length
  have hsize : ((net ++ header ++ payload).length : ℤ) = 20 + header.length + payload.length := by
    rw [List.length_append, List.length_append, hnet.length_eq]
    rfl
  rw [hsize] at hview
  constructor
  · rw [ofTcp, hcopy, ok_bind, hsecond, ok_bind]
    dsimp only
    rw [view, hview]
    rfl
  · rw [view, ← List.append_assoc]
    exact hview

theorem FullPacketObject.ofUdp_plain (h : header.length = 8) (payload : List UByte) :
    ofUdp net header payload = .ok (.udp (net ++ header ++ payload)) ∧
      view (.udp (net ++ header ++ payload)) =
        .ok (.udp ⟨net ++ (header ++ payload), 0⟩ ⟨header ++ payload⟩
          (28, 28 + payload.length)) := by
  have hview := FullPacketView.ipv4Udp_plain hnet.layout hnet.words_eq (header ++ payload)
    (net ++ header ++ payload).length
  have hsize : ((net ++ header ++ payload).length : ℤ) = 28 + payload.length := by
    rw [List.length_append, List.length_append, hnet.length_eq, h]
    rfl
  rw [hsize, ← List.append_assoc] at hview
  constructor
  · rw [ofUdp, view, hview]
    rfl
  · rw [view, hview, List.append_assoc]

/-- A packet of views carrying TCP is made again with the new header, with some checksums. -/
theorem FullPacketView.newPacketByPayload_tcp (h : IsTcpLayout header) (behind payload : List UByte)
    (range : ℤ × ℤ) : ∃ sum check,
      newPacketByPayload (.tcp ⟨net ++ (header ++ behind), 0⟩ ⟨header ++ behind, header.length - 20⟩
        range) payload = .ok (.tcp
          ⟨newNetHeader net (UInt16.ofNat (20 + header.length + payload.length)) sum ++
            (newTcpHeader header payload.length check ++ payload), 0⟩
          ⟨newTcpHeader header payload.length check ++ payload, header.length - 20⟩
          (20 + header.length, 20 + header.length + payload.length)) := by
  have hlength := h.length_eq
  have hge := h.offset_ge
  obtain ⟨hof, hview⟩ := FullPacketObject.ofTcp_plain hnet h payload
  have hsame := orredWords_length header 12 (UInt16.ofNat payload.length)
  have hfixed := (setWord_length net 2 (UInt16.ofNat (20 + header.length + payload.length))).trans
    hnet.length_eq
  have hfirst := setTransportLength_tcp hnet.length_eq (show 20 ≤ header.length by omega) payload
    (header.length - 20) (20 + header.length, 20 + header.length + payload.length)
    (UInt16.ofNat payload.length)
  have hlengths := recalculateLengths_plain_tcp hnet.length_eq
    (show 20 ≤ (orredWords header 12 (UInt16.ofNat payload.length)).length by omega) payload
    (orredWords header 12 (UInt16.ofNat payload.length) ++ payload) payload.length
  obtain ⟨sum, check, hsums⟩ := recalculateChecksums_plain_tcp hfixed
    (show (orredWords header 12 (UInt16.ofNat payload.length)).length % 2 = 0 by omega) (by omega)
    [] payload (orredWords header 12 (UInt16.ofNat payload.length) ++ payload)
  rw [hsame, h.orredWords_size] at hlengths
  rw [hsame, List.append_nil] at hsums
  refine ⟨sum, check, ?_⟩
  rw [newPacketByPayload, hnet.toNetBytes, ok_bind, toTransportBytes_tcp, ok_bind, hof, ok_bind,
    hview, ok_bind, hfirst, ok_bind, hlengths, ok_bind, hsums]
  rfl

/-- A packet of views carrying UDP keeps the size of its header as its length. -/
theorem FullPacketView.newPacketByPayload_udp (h : header.length = 8) (behind payload : List UByte)
    (range : ℤ × ℤ) : ∃ sum check,
      newPacketByPayload (.udp ⟨net ++ (header ++ behind), 0⟩ ⟨header ++ behind⟩ range) payload =
        .ok (.udp ⟨newNetHeader net (UInt16.ofNat (28 + payload.length)) sum ++
            (newUdpHeader header 8 check ++ payload), 0⟩
          ⟨newUdpHeader header 8 check ++ payload⟩ (28, 28 + payload.length)) := by
  obtain ⟨hof, hview⟩ := FullPacketObject.ofUdp_plain hnet h payload
  have hfixed := (setWord_length net 2 (UInt16.ofNat (28 + payload.length))).trans hnet.length_eq
  have hfirst := setTransportLength_udp hnet.length_eq h.ge payload (28, 28 + payload.length)
    (UInt16.ofNat payload.length)
  have hsame := (setWord_length header 4 (UInt16.ofNat payload.length)).trans h
  have hlengths := recalculateLengths_plain_udp hnet.length_eq hsame.ge payload
    (setWord header 4 (UInt16.ofNat payload.length) ++ payload) payload.length
  rw [setWord_setWord] at hlengths
  obtain ⟨sum, check, hsums⟩ := recalculateChecksums_plain_udp hfixed
    ((setWord_length header 4 8).trans h) [] payload (setWord header 4 8 ++ payload)
  rw [List.append_nil] at hsums
  refine ⟨sum, check, ?_⟩
  rw [newPacketByPayload, hnet.toNetBytes, ok_bind, toTransportBytes_udp h, ok_bind, hof, ok_bind,
    hview, ok_bind, hfirst, ok_bind, hlengths, ok_bind, hsums]
  rfl

end Parts

namespace FullPacketForm

section Known

variable {net header : List UByte} (hnet : IsPlainIpv4 net)
include hnet

variable (header) in
/-- The parts of views are the parts of their memory. -/
theorem parts_tcp (data behind : List UByte) : parts (.views (.tcp
      ⟨net ++ (header ++ (data ++ behind)), 0⟩ ⟨header ++ (data ++ behind), header.length - 20⟩
      (20 + header.length, 20 + header.length + data.length))) = .ok ⟨net, header, data⟩ := by
  have hdata : slice (net ++ (header ++ (data ++ behind))) (20 + header.length)
      (20 + header.length + data.length) = .ok data :=
    slice_append_append _ _ _ _ _ _ (by rw [hnet.length_eq]; rfl) rfl
  rw [parts, hnet.toNetBytes, ok_bind, toTransportBytes_tcp, ok_bind, FullPacketView.getPayload,
    hdata]
  rfl

theorem parts_udp (h : header.length = 8) (data behind : List UByte) : parts (.views (.udp
      ⟨net ++ (header ++ (data ++ behind)), 0⟩ ⟨header ++ (data ++ behind)⟩
      (28, 28 + data.length))) = .ok ⟨net, header, data⟩ := by
  have hdata : slice (net ++ (header ++ (data ++ behind))) 28 (28 + data.length) = .ok data :=
    slice_append_append _ _ _ _ _ _ (by rw [hnet.length_eq, h]; rfl) rfl
  rw [parts, hnet.toNetBytes, ok_bind, toTransportBytes_udp h, ok_bind, FullPacketView.getPayload,
    hdata]
  rfl

/-- The bytes of a packet of views parse back into its parts. -/
theorem parsedBack_tcp (h : IsTcpLayout header) (data : List UByte) :
    ∃ r, parsedBack (.views (.tcp ⟨net ++ (header ++ data), 0⟩ ⟨header ++ data, header.length - 20⟩
      (20 + header.length, 20 + header.length + data.length))) = .ok r ∧
        r.parts = .ok ⟨net, header, data⟩ := by
  have hsize : ((net ++ header ++ data).length : ℤ) = 20 + header.length + data.length := by
    rw [List.length_append, List.length_append, hnet.length_eq]
    rfl
  have hbytes : FullPacketView.bytes (net ++ (header ++ data)) (.tcp ⟨net ++ (header ++ data), 0⟩
      ⟨header ++ data, header.length - 20⟩ (20 + header.length, 20 + header.length + data.length)) =
      .ok (net ++ header ++ data) := by
    rw [← List.append_assoc]
    exact slice_all _ _ hsize.symm
  have hview := FullPacketView.ipv4Tcp_plain hnet.layout hnet.words_eq h data
    (net ++ header ++ data).length
  have hparts := parts_tcp header hnet data []
  rw [List.append_nil] at hparts
  refine ⟨_, ?_, hparts⟩
  rw [parsedBack, hbytes, ok_bind, hview, hsize, List.append_assoc]
  rfl

theorem parsedBack_udp (h : header.length = 8) (data : List UByte) :
    ∃ r, parsedBack (.views (.udp ⟨net ++ (header ++ data), 0⟩ ⟨header ++ data⟩
      (28, 28 + data.length))) = .ok r ∧ r.parts = .ok ⟨net, header, data⟩ := by
  have hsize : ((net ++ (header ++ data)).length : ℤ) = 28 + data.length := by
    rw [List.length_append, List.length_append, hnet.length_eq, h]
    omega
  have hbytes : FullPacketView.bytes (net ++ (header ++ data)) (.udp ⟨net ++ (header ++ data), 0⟩
      ⟨header ++ data⟩ (28, 28 + data.length)) = .ok (net ++ (header ++ data)) :=
    slice_all _ _ hsize.symm
  have hview := FullPacketView.ipv4Udp_plain hnet.layout hnet.words_eq (header ++ data)
    (net ++ (header ++ data)).length
  have hparts := parts_udp hnet h data []
  rw [List.append_nil] at hparts
  refine ⟨_, ?_, hparts⟩
  rw [parsedBack, hbytes, ok_bind, hview, hsize]
  rfl

end Known

section Judged

variable {p q : FullPacketForm} {payload : List UByte} {old new : PacketParts}

/-- Once the new packet and its parts are known, the headers and the bytes decide. -/
theorem replaces_iff_of_ok (hq : p.newPacketByPayload payload = .ok q) (hold : p.parts = .ok old)
    (hnew : q.parts = .ok new) : p.Replaces payload ↔
      (KeepsOutside netFields old.net new.net ∧
        KeepsOutside p.transportFields old.transport new.transport ∧ new.payload = payload ∧
          ∃ r, q.parsedBack = .ok r ∧ r.parts = .ok new) := by
  constructor
  · rintro ⟨q', hq', old', new', hold', hnew', hkeeps⟩
    cases hq.symm.trans hq'
    cases hold.symm.trans hold'
    cases hnew.symm.trans hnew'
    exact hkeeps
  · intro hkeeps
    exact ⟨q, hq, old, new, hold, hnew, hkeeps⟩

/-- The lengths of the new packet are judged apart. -/
theorem replacesWell_iff_of_ok (hq : p.newPacketByPayload payload = .ok q) :
    p.ReplacesWell payload ↔ p.Replaces payload ∧ q.LengthsHold := by
  constructor
  · rintro ⟨q', hq', hkeeps, hlengths⟩
    cases hq.symm.trans hq'
    exact ⟨⟨q, hq, hkeeps⟩, hlengths⟩
  · rintro ⟨⟨q', hq', hkeeps⟩, hlengths⟩
    cases hq.symm.trans hq'
    exact ⟨q, hq, hkeeps, hlengths⟩

end Judged

/-- The new total length is read back. -/
theorem newNetHeader_total {net : List UByte} (h : net.length = 20) (total sum : UShort) :
    read16 (newNetHeader net total sum) 2 = .ok total := by
  rw [newNetHeader, read16_setWord_ne (by decide), read16_setWord (by omega)]

theorem newNetHeader_length {net : List UByte} (h : net.length = 20) (total sum : UShort) :
    (newNetHeader net total sum).length = 20 := by
  rw [newNetHeader, setWord_length, setWord_length, h]

/-- A data offset that covers the size still declares the header. -/
theorem newTcpHeader_layout {header : List UByte} (h : IsTcpLayout header) {n : ℕ}
    (hcovers : OffsetCovers header n) (check : UShort) :
    IsTcpLayout (newTcpHeader header n check) := by
  have hlength := h.length_eq
  have hge := h.offset_ge
  apply h.of_same (newTcpHeader_length _ _ _)
  rw [newTcpHeader_offset (by omega)]
  exact (or_shifted_eq_iff _ _).mpr hcovers

theorem fatTcp_replaces {p : Ipv4TcpFatPacket} {payload : List UByte} (h : Plain (.fatTcp p))
    (hle : headerSize (.fatTcp p) + payload.length ≤ 65535) :
    (Replaces (.fatTcp p) payload ↔ OffsetCovers p.transport.header payload.length) ∧
      (ReplacesWell (.fatTcp p) payload ↔ OffsetCovers p.transport.header payload.length) := by
  obtain ⟨⟨net⟩, ⟨header⟩, old, data⟩ := p
  rcases h with ⟨hnet, hheader⟩
  dsimp only at hnet hheader
  have hlength := hheader.length_eq
  have hge := hheader.offset_ge
  have hfixed := hnet.length_eq
  have hlong : 12 < header.length := by omega
  have hsize : 20 + header.length + payload.length ≤ 65535 := by
    simp only [headerSize, hfixed] at hle
    omega
  obtain ⟨sum, check, hmade⟩ :=
    Ipv4TcpFatPacket.newPacketByPayload_eq hnet hheader old data payload
  have hnet' := hnet.newNetHeader (UInt16.ofNat (20 + header.length + payload.length)) sum
  have hsame := newTcpHeader_length header payload.length check
  have hq : newPacketByPayload (.fatTcp ⟨⟨net⟩, ⟨header⟩, old, data⟩) payload = .ok (.fatTcp _) :=
    congrArg (Except.map fatTcp) hmade
  have hkeeps : Replaces (.fatTcp ⟨⟨net⟩, ⟨header⟩, old, data⟩) payload ↔
      OffsetCovers header payload.length := by
    rw [replaces_iff_of_ok hq rfl rfl]
    constructor
    · rintro ⟨-, hheaders, -⟩
      exact (newTcpHeader_keeps_iff hlong _ check).mp hheaders
    · intro hcovers
      have hback := Ipv4TcpFatPacket.ofBytes_layout hnet'.layout
        (newTcpHeader_layout hheader hcovers check)
        (by rw [hnet'.length_eq, hsame]; omega) payload []
      rw [List.append_nil] at hback
      exact ⟨newNetHeader_keeps net _ sum, (newTcpHeader_keeps_iff hlong _ check).mpr hcovers,
        rfl, _, congrArg (Except.map fatTcp) hback, rfl⟩
  refine ⟨hkeeps, ?_⟩
  rw [replacesWell_iff_of_ok hq, hkeeps, and_iff_left_iff_imp]
  intro hcovers
  have hoffset := (newTcpHeader_layout hheader hcovers check).length_eq
  have hwords : TcpPacketLittleEndian.getTcpHeaderLength
      ⟨newTcpHeader header payload.length check⟩ =
      .ok ((newTcpHeader header payload.length check).getD 12 0 >>> 4) := by
    rw [TcpPacketLittleEndian.getTcpHeaderLength, readAt_getD (hlong.trans_eq hsame.symm) 0]
    rfl
  refine ⟨⟨_, newNetHeader_total hfixed _ sum, ?_⟩, _, hwords, ?_⟩
  · rw [Ipv4TcpFatPacket.bytes, List.length_append, List.length_append, newNetHeader_length hfixed,
      hsame]
    exact UInt16.toNat_ofNat_of_lt (by change _ < 65536; omega)
  · rw [Nat.mul_comm]
    exact hoffset.symm

theorem fatUdp_replaces {p : Ipv4UdpFatPacket} {payload : List UByte} (h : Plain (.fatUdp p))
    (hle : headerSize (.fatUdp p) + payload.length ≤ 65535) :
    (Replaces (.fatUdp p) payload ↔ p.transport.header.length % 2 = 0 ∧ payload = []) ∧
      (ReplacesWell (.fatUdp p) payload ↔ p.transport.header.length % 2 = 0 ∧ payload = []) := by
  obtain ⟨⟨net⟩, ⟨header⟩, old, data⟩ := p
  rcases h with ⟨hnet, hheader⟩
  dsimp only at hnet hheader
  have hfixed := hnet.length_eq
  have hsize : 20 + header.length + payload.length ≤ 65535 := by
    simp only [headerSize, hfixed] at hle
    omega
  obtain ⟨hmade, heven⟩ := Ipv4UdpFatPacket.newPacketByPayload_eq hnet hheader old data payload
  have hodd {q : FullPacketForm}
      (hq : newPacketByPayload (.fatUdp ⟨⟨net⟩, ⟨header⟩, old, data⟩) payload = .ok q) :
      header.length % 2 = 0 := by
    cases hrun : Ipv4UdpFatPacket.newPacketByPayload ⟨⟨net⟩, ⟨header⟩, old, data⟩ payload with
    | ok q => exact heven q hrun
    | error fault =>
      rw [newPacketByPayload, hrun] at hq
      cases hq
  by_cases hparity : header.length % 2 = 0
  · obtain ⟨sum, check, hmade⟩ := hmade hparity
    have hnet' := hnet.newNetHeader (UInt16.ofNat (20 + header.length + payload.length)) sum
    have hsame := newUdpHeader_length header (UInt16.ofNat header.length) check
    have hq : newPacketByPayload (.fatUdp ⟨⟨net⟩, ⟨header⟩, old, data⟩) payload = .ok (.fatUdp _) :=
      congrArg (Except.map fatUdp) hmade
    have hback := Ipv4UdpFatPacket.ofBytes_layout hnet'.layout
      (newUdpHeader header (UInt16.ofNat header.length) check ++ payload)
      (by rw [hnet'.length_eq, List.length_append, hsame]; omega) []
    rw [List.append_nil, ← List.append_assoc] at hback
    have hagain : parsedBack (.fatUdp ⟨⟨newNetHeader net
        (UInt16.ofNat (20 + header.length + payload.length)) sum⟩,
        ⟨newUdpHeader header (UInt16.ofNat header.length) check⟩, payload, []⟩) =
        .ok (.fatUdp _) := congrArg (Except.map fatUdp) hback
    have hkeeps : Replaces (.fatUdp ⟨⟨net⟩, ⟨header⟩, old, data⟩) payload ↔ payload = [] := by
      rw [replaces_iff_of_ok hq rfl rfl]
      constructor
      · rintro ⟨-, -, -, r, hr, hparts⟩
        cases hagain.symm.trans hr
        exact (congrArg PacketParts.payload (Except.ok.inj hparts)).symm
      · intro hnone
        refine ⟨newNetHeader_keeps net _ sum, (KeepsOutside.of_setWord rfl rfl _).trans
          (KeepsOutside.of_setWord rfl rfl check), rfl, _, hagain, ?_⟩
        change Except.ok (PacketParts.mk _ (_ ++ payload) []) = .ok ⟨_, _, payload⟩
        rw [hnone, List.append_nil]
        rfl
    have hread : read16 (newUdpHeader header (UInt16.ofNat header.length) check) 4 =
        .ok (UInt16.ofNat header.length) := by
      rw [newUdpHeader, read16_setWord_ne (by decide), read16_setWord (by omega)]
    rw [hkeeps, replacesWell_iff_of_ok hq, hkeeps, and_iff_right hparity]
    refine ⟨Iff.rfl, and_iff_left_of_imp fun hnone => ?_⟩
    subst hnone
    refine ⟨⟨_, newNetHeader_total hfixed _ sum, ?_⟩, _, hread, ?_⟩
    · rw [Ipv4UdpFatPacket.bytes, List.length_append, List.length_append, List.length_append,
        newNetHeader_length hfixed, hsame]
      exact UInt16.toNat_ofNat_of_lt (by change _ < 65536; omega)
    · have hexact : (UInt16.ofNat header.length).toNat = header.length :=
        UInt16.toNat_ofNat_of_lt (by change _ < 65536; omega)
      rw [hexact, hsame, List.length_nil]
      omega
  · have hnever (P : Prop) : ¬(header.length % 2 = 0 ∧ P) := fun hand => hparity hand.1
    constructor
    · apply iff_of_false _ (hnever _)
      rintro ⟨q, hq, -⟩
      exact hparity (hodd hq)
    · apply iff_of_false _ (hnever _)
      rintro ⟨q, hq, -⟩
      exact hparity (hodd hq)

theorem viewTcp_replaces {ip : Ipv4PacketView} {transport : TcpPacketView} {range : ℤ × ℤ}
    {payload : List UByte} (h : Plain (.views (.tcp ip transport range)))
    (hle : headerSize (.views (.tcp ip transport range)) + payload.length ≤ 65535) :
    (Replaces (.views (.tcp ip transport range)) payload ↔
        OffsetCovers transport.tcpHeader payload.length) ∧
      (ReplacesWell (.views (.tcp ip transport range)) payload ↔
        OffsetCovers transport.tcpHeader payload.length) := by
  obtain ⟨net, header, data, behind, hnet, hheader, rfl, rfl, rfl⟩ := h
  have hlength := hheader.length_eq
  have hge := hheader.offset_ge
  have hfixed := hnet.length_eq
  have hlong : 12 < header.length := by omega
  have hsize : 20 + header.length + payload.length ≤ 65535 := by
    simp only [headerSize] at hle
    omega
  have hfront : OffsetCovers (header ++ (data ++ behind)) payload.length ↔
      OffsetCovers header payload.length := by
    rw [OffsetCovers, List.getD_eq_getElem?_getD, List.getElem?_append_left hlong,
      ← List.getD_eq_getElem?_getD, OffsetCovers]
  obtain ⟨sum, check, hmade⟩ := FullPacketView.newPacketByPayload_tcp hnet hheader
    (data ++ behind) payload (20 + header.length, 20 + header.length + data.length)
  have hnet' := hnet.newNetHeader (UInt16.ofNat (20 + header.length + payload.length)) sum
  have hsame := newTcpHeader_length header payload.length check
  have hq : newPacketByPayload (.views (.tcp ⟨net ++ (header ++ (data ++ behind)), 0⟩
      ⟨header ++ (data ++ behind), header.length - 20⟩
      (20 + header.length, 20 + header.length + data.length))) payload = .ok (.views _) :=
    congrArg (Except.map views) hmade
  have hold := parts_tcp header hnet data behind
  have hnew := parts_tcp (newTcpHeader header payload.length check) hnet' payload []
  rw [List.append_nil, hsame] at hnew
  have hkeeps := replaces_iff_of_ok hq hold hnew
  have hcovers_iff : Replaces (.views (.tcp ⟨net ++ (header ++ (data ++ behind)), 0⟩
      ⟨header ++ (data ++ behind), header.length - 20⟩
      (20 + header.length, 20 + header.length + data.length))) payload ↔
      OffsetCovers header payload.length := by
    rw [hkeeps]
    constructor
    · rintro ⟨-, hheaders, -⟩
      exact (newTcpHeader_keeps_iff hlong _ check).mp hheaders
    · intro hcovers
      have hback := parsedBack_tcp hnet' (newTcpHeader_layout hheader hcovers check) payload
      rw [hsame] at hback
      exact ⟨newNetHeader_keeps net _ sum, (newTcpHeader_keeps_iff hlong _ check).mpr hcovers, rfl,
        hback⟩
  rw [hfront]
  refine ⟨hcovers_iff, ?_⟩
  rw [replacesWell_iff_of_ok hq, hcovers_iff, and_iff_left_iff_imp]
  intro hcovers
  have hoffset := (newTcpHeader_layout hheader hcovers check).length_eq
  have htotal := read16_of_prefix (newNetHeader_total hfixed
    (UInt16.ofNat (20 + header.length + payload.length)) sum)
    (newTcpHeader header payload.length check ++ payload)
  have hall : (newNetHeader net (UInt16.ofNat (20 + header.length + payload.length)) sum ++
      (newTcpHeader header payload.length check ++ payload)).length =
      20 + header.length + payload.length := by
    rw [List.length_append, List.length_append, newNetHeader_length hfixed, hsame, Nat.add_assoc]
  have hwords : TcpPacketView.getTcpHeaderLength
      ⟨newTcpHeader header payload.length check ++ payload, header.length - 20⟩ =
      .ok ((newTcpHeader header payload.length check).getD 12 0 >>> 4) := by
    rw [TcpPacketView.getTcpHeaderLength,
      readAt_append_getD (hlong.trans_eq hsame.symm) 0 payload]
    rfl
  refine ⟨⟨_, _, htotal, slice_all _ _ (by rw [hall]; rfl), ?_⟩, _, hwords, ?_⟩
  · rw [hall]
    exact UInt16.toNat_ofNat_of_lt (by change _ < 65536; omega)
  · rw [declaredOffset, hsame] at hoffset
    dsimp only
    omega

theorem viewUdp_replaces {ip : Ipv4PacketView} {transport : UdpPacketView} {range : ℤ × ℤ}
    {payload : List UByte} (h : Plain (.views (.udp ip transport range)))
    (hle : headerSize (.views (.udp ip transport range)) + payload.length ≤ 65535) :
    Replaces (.views (.udp ip transport range)) payload ∧
      (ReplacesWell (.views (.udp ip transport range)) payload ↔ payload = []) := by
  obtain ⟨net, header, data, behind, hnet, hheader, rfl, rfl, rfl⟩ := h
  have hfixed := hnet.length_eq
  have hsize : 28 + payload.length ≤ 65535 := by
    simp only [headerSize] at hle
    omega
  obtain ⟨sum, check, hmade⟩ := FullPacketView.newPacketByPayload_udp hnet hheader
    (data ++ behind) payload (28, 28 + data.length)
  have hnet' := hnet.newNetHeader (UInt16.ofNat (28 + payload.length)) sum
  have hsame := (newUdpHeader_length header 8 check).trans hheader
  have hq : newPacketByPayload (.views (.udp ⟨net ++ (header ++ (data ++ behind)), 0⟩
      ⟨header ++ (data ++ behind)⟩ (28, 28 + data.length))) payload = .ok (.views _) :=
    congrArg (Except.map views) hmade
  have hold := parts_udp hnet hheader data behind
  have hnew := parts_udp hnet' hsame payload []
  rw [List.append_nil] at hnew
  have hkeeps := (replaces_iff_of_ok hq hold hnew).mpr ⟨newNetHeader_keeps net _ sum,
    (KeepsOutside.of_setWord rfl rfl 8).trans (KeepsOutside.of_setWord rfl rfl check), rfl,
    parsedBack_udp hnet' hsame payload⟩
  refine ⟨hkeeps, ?_⟩
  rw [replacesWell_iff_of_ok hq, and_iff_right hkeeps]
  have htotal := read16_of_prefix (newNetHeader_total hfixed
    (UInt16.ofNat (28 + payload.length)) sum) (newUdpHeader header 8 check ++ payload)
  have hall : (newNetHeader net (UInt16.ofNat (28 + payload.length)) sum ++
      (newUdpHeader header 8 check ++ payload)).length = 28 + payload.length := by
    rw [List.length_append, List.length_append, newNetHeader_length hfixed, hsame, ← Nat.add_assoc]
  have hlength : UdpPacketView.getUdpLength ⟨newUdpHeader header 8 check ++ payload⟩ = .ok 8 := by
    have hread : read16 (newUdpHeader header 8 check) 4 = .ok 8 := by
      rw [newUdpHeader, read16_setWord_ne (by decide), read16_setWord (by omega)]
    exact read16_of_prefix hread payload
  have height : ((8 : UShort).toNat : ℤ) = 8 := rfl
  rw [LengthsHold, exists_ok_iff hlength, height, ← List.length_eq_zero_iff]
  constructor
  · rintro ⟨-, hvalue⟩
    omega
  · intro hnone
    refine ⟨⟨_, _, htotal, slice_all _ _ (by rw [hall]; rfl), ?_⟩, by omega⟩
    rw [hall]
    exact UInt16.toNat_ofNat_of_lt (by change _ < 65536; omega)

/-- With which payloads a packet keeps its headers, and with which its lengths are right too. -/
theorem newPacketByPayload_iff (p : FullPacketForm) (h : p.Plain) (payload : List UByte)
    (hle : p.headerSize + payload.length ≤ 65535) :
    (p.Replaces payload ↔ p.Fits payload) ∧ (p.ReplacesWell payload ↔ p.FitsWell payload) := by
  cases p with
  | fatTcp p => exact fatTcp_replaces h hle
  | fatUdp p => exact fatUdp_replaces h hle
  | views p =>
    cases p with
    | tcp ip transport range => exact viewTcp_replaces h hle
    | udp ip transport range =>
      have hudp := viewUdp_replaces h hle
      exact ⟨iff_true_intro hudp.1, hudp.2⟩
    | dummy => exact absurd h id

/-- The IPv4 header of a packet carrying TCP. -/
def plainNet : List UByte := [0x45, 0, 0, 40, 0, 1, 0, 0, 64, 6, 0, 0, 10, 0, 0, 1, 10, 0, 0, 2]

theorem isPlainIpv4_plainNet : IsPlainIpv4 plainNet where
  layout := ⟨by decide, by decide⟩
  words_eq := by decide

theorem isTcpLayout_fiveWords : IsTcpLayout HeaderSetting.fiveWords where
  offset_ge := by decide
  length_eq := by decide

/-- A packet whose data offset has the bits of five words of payload. -/
theorem newPacketByPayload_fiveWords :
    ReplacesWell (.fatTcp ⟨⟨plainNet⟩, ⟨HeaderSetting.fiveWords⟩, [], []⟩) (List.replicate 20 7) :=
  (newPacketByPayload_iff (.fatTcp ⟨⟨plainNet⟩, ⟨HeaderSetting.fiveWords⟩, [], []⟩)
    ⟨isPlainIpv4_plainNet, isTcpLayout_fiveWords⟩ (List.replicate 20 7) (by decide)).2.mpr
    (show OffsetCovers HeaderSetting.fiveWords 20 by rw [OffsetCovers]; decide)

/-- A view of an empty segment. -/
def emptySegment : FullPacketView :=
  .tcp ⟨plainNet ++ HeaderSetting.fiveWords, 0⟩ ⟨HeaderSetting.fiveWords, 0⟩ (40, 40)

/-- A view of an empty datagram. -/
def emptyDatagram : FullPacketView :=
  .udp ⟨plainNet ++ [0, 53, 4, 210, 0, 8, 0, 0], 0⟩ ⟨[0, 53, 4, 210, 0, 8, 0, 0]⟩ (28, 28)

/-- Two words of payload turn the data offset five into seven, and a datagram over views keeps
the length of an empty one. -/
theorem newPacketByPayload_breaks :
    ¬Replaces (.fatTcp ⟨⟨plainNet⟩, ⟨HeaderSetting.fiveWords⟩, [], []⟩) (List.replicate 8 7) ∧
      ¬Replaces (.views emptySegment) (List.replicate 8 7) ∧
      ¬ReplacesWell (.views emptyDatagram) [1] := by
  have hshort : ¬OffsetCovers HeaderSetting.fiveWords 8 := by
    rw [OffsetCovers]
    decide
  have hsegment : Plain (.views emptySegment) := ⟨plainNet, HeaderSetting.fiveWords, [], [],
    isPlainIpv4_plainNet, isTcpLayout_fiveWords, rfl, rfl, rfl⟩
  have hdatagram : Plain (.views emptyDatagram) := ⟨plainNet, [0, 53, 4, 210, 0, 8, 0, 0], [], [],
    isPlainIpv4_plainNet, rfl, rfl, rfl, rfl⟩
  have hfat : Plain (.fatTcp ⟨⟨plainNet⟩, ⟨HeaderSetting.fiveWords⟩, [], []⟩) :=
    ⟨isPlainIpv4_plainNet, isTcpLayout_fiveWords⟩
  have hfatSize : headerSize (.fatTcp ⟨⟨plainNet⟩, ⟨HeaderSetting.fiveWords⟩, [], []⟩) +
      (List.replicate 8 (7 : UByte)).length ≤ 65535 := by decide
  have hsegmentSize : headerSize (.views emptySegment) +
      (List.replicate 8 (7 : UByte)).length ≤ 65535 := by decide
  have hdatagramSize : headerSize (.views emptyDatagram) + [(1 : UByte)].length ≤ 65535 := by decide
  refine ⟨fun h => ?_, fun h => ?_, fun h => ?_⟩
  · have hcovers := (fatTcp_replaces hfat hfatSize).1.mp h
    exact hshort hcovers
  · have hcovers := (viewTcp_replaces hsegment hsegmentSize).1.mp h
    exact hshort hcovers
  · have hnone := (viewUdp_replaces hdatagram hdatagramSize).2.mp h
    cases hnone

end FullPacketForm

end QVPN
