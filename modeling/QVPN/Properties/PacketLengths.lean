import QVPN.Properties.HeaderSetters
import QVPN.Properties.TransportChecksum

/-!
# Recalculated lengths

A packet by value and a packet of views store their sizes in the same header fields. The IP total
length is replaced. The data offset of a TCP header is or-ed into the one that stands there, so
it is right only when the size has all the bits of the old one. The length of a UDP header is set
to the size of the header alone, which for a packet by value is all that was copied into it.
-/

namespace QVPN

open BigEndian Memory Lens

/-- A packet by value, or views over a memory that the packet owns or shares. -/
inductive FullPacketForm where
  | fatTcp (packet : Ipv4TcpFatPacket)
  | fatUdp (packet : Ipv4UdpFatPacket)
  | views (packet : FullPacketView)
  deriving DecidableEq, Repr

namespace FullPacketForm

def recalculateLengths : FullPacketForm → Except Fault FullPacketForm
  | .fatTcp p => p.recalculateLengths.map .fatTcp
  | .fatUdp p => p.recalculateLengths.map .fatUdp
  | .views p => p.recalculateLengths.map .views

/-- Fixed headers are there, views lie one behind the other in their memory, and the whole packet
has a size of sixteen bits. The length fields may hold anything. -/
def Valid : FullPacketForm → Prop
  | .fatTcp p => 20 ≤ p.net.header.length ∧ 20 ≤ p.transport.header.length ∧
      p.net.header.length + p.transport.header.length + p.payload.length ≤ 65535
  | .fatUdp p => 20 ≤ p.net.header.length ∧ 8 ≤ p.transport.header.length ∧
      p.net.header.length + p.transport.header.length + p.payload.length ≤ 65535
  | .views (.tcp ip transport payload) => 0 ≤ ip.addHeaderSize ∧ 0 ≤ transport.tcpOptionsSize ∧
      40 + ip.addHeaderSize + transport.tcpOptionsSize ≤ payload.1 ∧ payload.1 ≤ payload.2 ∧
      payload.2 ≤ ip.header.length ∧ payload.2 ≤ 65535 ∧
      transport.tcpHeader = ip.header.drop (20 + ip.addHeaderSize).toNat
  | .views (.udp ip transport payload) => 0 ≤ ip.addHeaderSize ∧
      28 + ip.addHeaderSize = payload.1 ∧ payload.1 ≤ payload.2 ∧
      payload.2 ≤ ip.header.length ∧ payload.2 ≤ 65535 ∧
      transport.header = ip.header.drop (20 + ip.addHeaderSize).toNat
  | .views .dummy => False

/-- The IP total length is the size of the bytes, and the transport header's field holds the size
it is about: words of the TCP header, or the UDP header and all bytes behind it. -/
def LengthsHold : FullPacketForm → Prop
  | .fatTcp p =>
    (∃ total, p.net.getIpTotalLength = .ok total ∧ total.toNat = p.bytes.1.length) ∧
      ∃ words, p.transport.getTcpHeaderLength = .ok words ∧
        words.toNat * 4 = p.transport.header.length
  | .fatUdp p =>
    (∃ total, p.net.getIpTotalLength = .ok total ∧ total.toNat = p.bytes.1.length) ∧
      ∃ length, p.transport.getUdpLength = .ok length ∧
        length.toNat = 8 + (p.transport.header.length - 8 + p.payload.length)
  | .views (.tcp ip transport payload) =>
    (∃ total bytes, ip.getIpTotalLength = .ok total ∧
      FullPacketView.bytes ip.header (.tcp ip transport payload) = .ok bytes ∧
        total.toNat = bytes.length) ∧
      ∃ words, transport.getTcpHeaderLength = .ok words ∧
        (words.toNat : ℤ) * 4 = 20 + transport.tcpOptionsSize
  | .views (.udp ip transport payload) =>
    (∃ total bytes, ip.getIpTotalLength = .ok total ∧
      FullPacketView.bytes ip.header (.udp ip transport payload) = .ok bytes ∧
        total.toNat = bytes.length) ∧
      ∃ length, transport.getUdpLength = .ok length ∧
        (length.toNat : ℤ) = 8 + (payload.2 - payload.1)
  | .views .dummy => True

/-- The length fields of a packet over one memory whose transport header starts at `n`. -/
def tcpLengthsMask (n i : ℕ) : UByte :=
  if i = 2 ∨ i = 3 then 0xFF else if i = n + 12 then 0xF0 else 0

def udpLengthsMask (n i : ℕ) : UByte :=
  if i = 2 ∨ i = 3 ∨ i = n + 4 ∨ i = n + 5 then 0xFF else 0

/-- Only the length fields may differ; payload and sizes are the same. -/
def KeepsOtherBits : FullPacketForm → FullPacketForm → Prop
  | .fatTcp p, .fatTcp q => KeepsOutside (wordMask 2) p.net.header q.net.header ∧
      KeepsOutside (byteMask 12 0xF0) p.transport.header q.transport.header ∧
      q.payload = p.payload ∧ q.data = p.data
  | .fatUdp p, .fatUdp q => KeepsOutside (wordMask 2) p.net.header q.net.header ∧
      KeepsOutside (wordMask 4) p.transport.header q.transport.header ∧
      q.payload = p.payload ∧ q.data = p.data
  | .views (.tcp ip transport payload), .views (.tcp ip' transport' payload') =>
      KeepsOutside (tcpLengthsMask (20 + ip.addHeaderSize).toNat) ip.header ip'.header ∧
      ip'.addHeaderSize = ip.addHeaderSize ∧ transport'.tcpOptionsSize = transport.tcpOptionsSize ∧
      payload' = payload
  | .views (.udp ip _ payload), .views (.udp ip' _ payload') =>
      KeepsOutside (udpLengthsMask (20 + ip.addHeaderSize).toNat) ip.header ip'.header ∧
      ip'.addHeaderSize = ip.addHeaderSize ∧ payload' = payload
  | _, _ => False

/-- Recalculating the lengths makes them hold and changes nothing else. -/
def LengthsRestored (p : FullPacketForm) : Prop :=
  ∃ q, p.recalculateLengths = .ok q ∧ q.LengthsHold ∧ p.KeepsOtherBits q

/-- The packets whose lengths are recalculated as they should be. -/
def LengthsFit : FullPacketForm → Prop
  | .fatTcp p => HeaderSetting.BytesFit (p.transport.header.getD 12 0 >>> 4)
      (UInt16.ofNat p.transport.header.length)
  | .fatUdp p => p.payload = [] ∧ p.data = []
  | .views (.tcp ip transport payload) =>
      payload.1 = 40 + ip.addHeaderSize + transport.tcpOptionsSize ∧
      HeaderSetting.BytesFit (ip.header.getD ((20 + ip.addHeaderSize).toNat + 12) 0 >>> 4)
        (UInt16.ofInt (20 + transport.tcpOptionsSize))
  | .views (.udp _ _ payload) => payload.1 = payload.2
  | .views .dummy => True

end FullPacketForm

/-- The words that are read back make up a length in bytes exactly when it fits. -/
theorem words_bytes_iff (b : UByte) (n : UShort) :
    ((b ||| (n / 4).toUInt8 <<< 4) >>> 4).toNat * 4 = n.toNat ↔
      HeaderSetting.BytesFit (b >>> 4) n := by
  have hnibble := highNibble_le (b ||| (n / 4).toUInt8 <<< 4)
  have htimes : (((b ||| (n / 4).toUInt8 <<< 4) >>> 4).toUInt16 * 4).toNat =
      ((b ||| (n / 4).toUInt8 <<< 4) >>> 4).toNat * 4 % 65536 := by
    rw [UInt16.toNat_mul, UInt8.toNat_toUInt16]
    rfl
  rw [← bytes_read_iff, ← UInt16.toNat_inj, htimes, Nat.mod_eq_of_lt (by omega)]

/-- A header into whose data offset words are or-ed. -/
def orredWords (header : List UByte) (i : ℕ) (n : UShort) : List UByte :=
  header.set i (header.getD i 0 ||| (n / 4).toUInt8 <<< 4)

@[simp] theorem orredWords_length (header : List UByte) (i : ℕ) (n : UShort) :
    (orredWords header i n).length = header.length := List.length_set

theorem TcpHeader.orWords_eq {header : List UByte} (h : 12 < header.length) (n : UShort) :
    orWords header (n / 4).toUInt8 = .ok (orredWords header 12 n) := update_eq h _

theorem readAt_orredWords {header : List UByte} {i : ℕ} (h : i < header.length) (n : UShort) :
    readAt (orredWords header i n) i = .ok (header.getD i 0 ||| (n / 4).toUInt8 <<< 4) := by
  rw [readAt_getD (by rw [orredWords_length]; exact h) 0, orredWords, getD_set_self h]

/-- The or-ed words are inside the mask of the data offset. -/
theorem orredWords_keeps {mask : ℕ → UByte} (header : List UByte) {i : ℕ} (hmask : mask i = 0xF0)
    (n : UShort) : KeepsOutside mask header (orredWords header i n) := by
  apply KeepsOutside.set
  rw [hmask]
  exact words_keep _ _

section Setters

theorem Ipv4PacketLittleEndian.setIpTotalLength_eq {p : Ipv4PacketLittleEndian}
    (h : 20 ≤ p.header.length) (v : UShort) :
    p.setIpTotalLength v = .ok ⟨setWord p.header 2 v⟩ := by
  rw [setIpTotalLength, write16_setWord (by omega)]
  rfl

theorem Ipv4PacketView.setIpTotalLength_eq {ip : Ipv4PacketView} (h : 20 ≤ ip.header.length)
    (v : UShort) : ip.setIpTotalLength v = .ok { ip with header := setWord ip.header 2 v } := by
  rw [setIpTotalLength, write16_setWord (by omega)]
  rfl

theorem TcpPacketLittleEndian.setTransportLength_eq {p : TcpPacketLittleEndian}
    (h : 20 ≤ p.header.length) (n : UShort) :
    p.setTransportLength n = .ok ⟨orredWords p.header 12 n⟩ := by
  rw [setTransportLength, TcpHeader.orWords_eq (by omega)]
  rfl

theorem TcpPacketView.setTransportLength_eq {v : TcpPacketView} (h : 20 ≤ v.tcpHeader.length)
    (n : UShort) :
    v.setTransportLength n = .ok { v with tcpHeader := orredWords v.tcpHeader 12 n } := by
  have hshift : ((n / 4) <<< 4).toUInt8 = (n / 4).toUInt8 <<< 4 :=
    UInt16.toUInt8_shiftLeft _ _ (by decide)
  rw [setTransportLength, readAt_getD (by omega) 0, ok_bind, writeAt, if_pos (by omega), hshift]
  rfl

theorem UdpPacketLittleEndian.setTransportLength_eq {p : UdpPacketLittleEndian}
    (h : 8 ≤ p.header.length) (n : UShort) :
    p.setTransportLength n = .ok ⟨setWord p.header 4 n⟩ := by
  rw [setTransportLength, write16_setWord (by omega)]
  rfl

theorem UdpPacketView.setTransportLength_eq {v : UdpPacketView} (h : 8 ≤ v.header.length)
    (n : UShort) : v.setTransportLength n = .ok ⟨setWord v.header 4 n⟩ := by
  rw [setTransportLength, write16_setWord (by omega)]
  rfl

end Setters

section Fat

/-- The packet with the sizes of its vectors in its headers. -/
def Ipv4TcpFatPacket.withLengths (p : Ipv4TcpFatPacket) : Ipv4TcpFatPacket :=
  { p with
    net := ⟨setWord p.net.header 2
      (UInt16.ofNat (p.net.header.length + p.transport.header.length + p.payload.length))⟩
    transport := ⟨orredWords p.transport.header 12 (UInt16.ofNat p.transport.header.length)⟩ }

theorem Ipv4TcpFatPacket.recalculateLengths_eq {p : Ipv4TcpFatPacket}
    (hnet : 20 ≤ p.net.header.length) (htransport : 20 ≤ p.transport.header.length) :
    p.recalculateLengths = .ok p.withLengths := by
  rw [recalculateLengths, Ipv4PacketLittleEndian.setIpTotalLength_eq hnet, ok_bind,
    TcpPacketLittleEndian.setTransportLength_eq htransport]
  rfl

def Ipv4UdpFatPacket.withLengths (p : Ipv4UdpFatPacket) : Ipv4UdpFatPacket :=
  { p with
    net := ⟨setWord p.net.header 2
      (UInt16.ofNat (p.net.header.length + p.transport.header.length + p.payload.length))⟩
    transport := ⟨setWord p.transport.header 4 (UInt16.ofNat p.transport.header.length)⟩ }

theorem Ipv4UdpFatPacket.recalculateLengths_eq {p : Ipv4UdpFatPacket}
    (hnet : 20 ≤ p.net.header.length) (htransport : 8 ≤ p.transport.header.length) :
    p.recalculateLengths = .ok p.withLengths := by
  rw [recalculateLengths, Ipv4PacketLittleEndian.setIpTotalLength_eq hnet, ok_bind,
    UdpPacketLittleEndian.setTransportLength_eq htransport]
  rfl

end Fat

section Views

/-- Words or-ed behind a front are or-ed into the whole memory. -/
theorem take_append_orredWords (mem : List UByte) (n i : ℕ) (size : UShort) :
    mem.take n ++ orredWords (mem.drop n) i size = orredWords mem (n + i) size := by
  have hat : (mem.drop n).getD i 0 = mem.getD (n + i) 0 := by
    rw [List.getD_eq_getElem?_getD, List.getElem?_drop, List.getD_eq_getElem?_getD]
  rw [orredWords, take_append_set, hat, orredWords]

/-- A memory with the lengths of a packet whose TCP header starts at `n`. -/
def tcpMemory (mem : List UByte) (n : ℕ) (total size : UShort) : List UByte :=
  orredWords (setWord mem 2 total) (n + 12) size

def udpMemory (mem : List UByte) (n : ℕ) (total size : UShort) : List UByte :=
  setWord (setWord mem 2 total) (n + 4) size

variable {ip : Ipv4PacketView} {payload : ℤ × ℤ} {n : ℕ} (hn : (n : ℤ) = 20 + ip.addHeaderSize)
  (hle : n ≤ 65535)
include hn hle

/-- The transport header starts behind the IP header. -/
theorem Ipv4PacketView.getSize_toNat : ip.getSize.toNat = n := by
  rw [getSize, toNat_ofInt]
  omega

/-- What is written through the view of a transport header is behind the IP header. -/
theorem FullPacketView.writeThrough_eq {mem mem' part : List UByte} (hmem : n ≤ mem.length)
    (hsplit : mem.take n ++ part = mem') :
    writeThrough { ip with header := mem } part = { ip with header := mem' } ∧
      mem'.drop n = part := by
  constructor
  · rw [writeThrough]
    congr 1
    change mem.take ip.getSize.toNat ++ part = mem'
    rw [Ipv4PacketView.getSize_toNat hn hle, hsplit]
  · rw [← hsplit, List.drop_left' (List.length_take_of_le hmem)]

/-- The lengths are written into the memory of the views. -/
theorem FullPacketView.recalculateLengths_tcp {transport : TcpPacketView} {total size : UShort}
    (htotal : UInt16.ofInt (20 + ip.addHeaderSize + (20 + transport.tcpOptionsSize) +
      (payload.2 - payload.1)) = total)
    (hsize : UInt16.ofInt (20 + transport.tcpOptionsSize) = size)
    (hmem : 20 ≤ ip.header.length) (hbehind : n + 20 ≤ ip.header.length) :
    recalculateLengths (.tcp ip transport payload) =
      .ok (.tcp { ip with header := tcpMemory ip.header n total size }
        ⟨(tcpMemory ip.header n total size).drop n, transport.tcpOptionsSize⟩ payload) := by
  have hhead := Ipv4PacketView.getSize_toNat hn hle
  have hbehind' : 20 ≤ ((setWord ip.header 2 total).drop n).length := by
    rw [List.length_drop, setWord_length]
    omega
  have hsize' : n ≤ (setWord ip.header 2 total).length := by
    rw [setWord_length]
    omega
  obtain ⟨hthrough, hdrop⟩ := writeThrough_eq hn hle hsize'
    (show _ = tcpMemory ip.header n total size from take_append_orredWords _ n 12 size)
  rw [recalculateLengths, Ipv4PacketView.setIpTotalLength_eq hmem, ok_bind, htotal, hsize]
  change (TcpPacketView.setTransportLength ⟨(setWord ip.header 2 total).drop ip.getSize.toNat, _⟩
    size >>= fun transport => _) = _
  rw [hhead, TcpPacketView.setTransportLength_eq hbehind', ok_bind, hdrop]
  exact congrArg (fun ip => Except.ok (FullPacketView.tcp ip _ payload)) hthrough

theorem FullPacketView.recalculateLengths_udp {transport : UdpPacketView} {total : UShort}
    (htotal : UInt16.ofInt (20 + ip.addHeaderSize + 8 + (payload.2 - payload.1)) = total)
    (hmem : 20 ≤ ip.header.length) (hbehind : n + 8 ≤ ip.header.length) :
    recalculateLengths (.udp ip transport payload) =
      .ok (.udp { ip with header := udpMemory ip.header n total 8 }
        ⟨(udpMemory ip.header n total 8).drop n⟩ payload) := by
  have hhead := Ipv4PacketView.getSize_toNat hn hle
  have hbehind' : 8 ≤ ((setWord ip.header 2 total).drop n).length := by
    rw [List.length_drop, setWord_length]
    omega
  have hsize' : n ≤ (setWord ip.header 2 total).length := by
    rw [setWord_length]
    omega
  obtain ⟨hthrough, hdrop⟩ := writeThrough_eq hn hle hsize'
    (show _ = udpMemory ip.header n total 8 from take_append_setWord _ n 4 8)
  rw [recalculateLengths, Ipv4PacketView.setIpTotalLength_eq hmem, ok_bind, htotal]
  change (UdpPacketView.setTransportLength ⟨(setWord ip.header 2 total).drop ip.getSize.toNat⟩
    8 >>= fun transport => _) = _
  rw [hhead, UdpPacketView.setTransportLength_eq hbehind', ok_bind, hdrop]
  exact congrArg (fun ip => Except.ok (FullPacketView.udp ip _ payload)) hthrough

end Views

namespace FullPacketForm

/-- There is one packet to be judged. -/
theorem lengthsRestored_iff_of_ok {p q : FullPacketForm} (h : p.recalculateLengths = .ok q)
    (hkeeps : p.KeepsOtherBits q) : p.LengthsRestored ↔ q.LengthsHold := by
  constructor
  · rintro ⟨q', hq', hhold, -⟩
    cases h.symm.trans hq'
    exact hhold
  · intro hhold
    exact ⟨q, h, hhold, hkeeps⟩

/-- A result that is known has a property exactly when the known value does. -/
theorem exists_ok_iff {α : Type} {x : Except Fault α} {a : α} (h : x = .ok a) (P : α → Prop) :
    (∃ b, x = .ok b ∧ P b) ↔ P a := by
  constructor
  · rintro ⟨b, hb, hP⟩
    cases h.symm.trans hb
    exact hP
  · intro hP
    exact ⟨a, h, hP⟩

theorem fatTcp_iff {p : Ipv4TcpFatPacket} (h : Valid (.fatTcp p)) :
    LengthsRestored (.fatTcp p) ↔ LengthsFit (.fatTcp p) := by
  rcases h with ⟨hnet, htransport, hle⟩
  have hrun : recalculateLengths (.fatTcp p) = .ok (.fatTcp p.withLengths) :=
    congrArg (Except.map fatTcp) (Ipv4TcpFatPacket.recalculateLengths_eq hnet htransport)
  apply (lengthsRestored_iff_of_ok hrun ⟨KeepsOutside.of_setWord rfl rfl _,
    orredWords_keeps _ rfl _, rfl, rfl⟩).trans
  have htotal : p.withLengths.net.getIpTotalLength = .ok _ :=
    read16_setWord (show 2 + 1 < p.net.header.length by omega) _
  have hwords : p.withLengths.transport.getTcpHeaderLength =
      .ok ((p.transport.header.getD 12 0 |||
        (UInt16.ofNat p.transport.header.length / 4).toUInt8 <<< 4) >>> 4) := by
    rw [TcpPacketLittleEndian.getTcpHeaderLength, Ipv4TcpFatPacket.withLengths,
      readAt_orredWords (by omega)]
    rfl
  have hbytes : p.withLengths.bytes.1.length =
      p.net.header.length + p.transport.header.length + p.payload.length := by
    rw [Ipv4TcpFatPacket.bytes, List.length_append, List.length_append,
      Ipv4TcpFatPacket.withLengths, setWord_length, orredWords_length]
  have hfit := words_bytes_iff (p.transport.header.getD 12 0)
    (UInt16.ofNat p.transport.header.length)
  rw [ofNat_toNat_of_le (by omega)] at hfit
  rw [LengthsHold, exists_ok_iff htotal, exists_ok_iff hwords, hbytes, ofNat_toNat_of_le hle,
    eq_self_iff_true, true_and, Ipv4TcpFatPacket.withLengths, orredWords_length, hfit]
  rfl

theorem fatUdp_iff {p : Ipv4UdpFatPacket} (h : Valid (.fatUdp p)) :
    LengthsRestored (.fatUdp p) ↔ LengthsFit (.fatUdp p) := by
  rcases h with ⟨hnet, htransport, hle⟩
  have hrun : recalculateLengths (.fatUdp p) = .ok (.fatUdp p.withLengths) :=
    congrArg (Except.map fatUdp) (Ipv4UdpFatPacket.recalculateLengths_eq hnet htransport)
  apply (lengthsRestored_iff_of_ok hrun ⟨KeepsOutside.of_setWord rfl rfl _,
    KeepsOutside.of_setWord rfl rfl _, rfl, rfl⟩).trans
  have htotal : p.withLengths.net.getIpTotalLength = .ok _ :=
    read16_setWord (show 2 + 1 < p.net.header.length by omega) _
  have hlength : p.withLengths.transport.getUdpLength = .ok _ :=
    read16_setWord (show 4 + 1 < p.transport.header.length by omega) _
  have hbytes : p.withLengths.bytes.1.length = p.data.length +
      p.net.header.length + p.transport.header.length + p.payload.length := by
    rw [Ipv4UdpFatPacket.bytes, List.length_append, List.length_append, List.length_append,
      Ipv4UdpFatPacket.withLengths, setWord_length, setWord_length]
  have hheader : p.withLengths.transport.header.length = p.transport.header.length :=
    setWord_length _ _ _
  have hpayload : p.withLengths.payload = p.payload := rfl
  rw [LengthsHold, exists_ok_iff htotal, exists_ok_iff hlength, hbytes, ofNat_toNat_of_le hle,
    ofNat_toNat_of_le (by omega), hheader, hpayload, LengthsFit, ← List.length_eq_zero_iff,
    ← List.length_eq_zero_iff]
  constructor
  · rintro ⟨hsize, hbehind⟩
    exact ⟨by omega, by omega⟩
  · rintro ⟨hnone, hfresh⟩
    exact ⟨by omega, by omega⟩

section Views

variable {ip : Ipv4PacketView} {payload : ℤ × ℤ}

/-- The bytes of a packet go from the IP header to the end of the payload. -/
theorem viewBytes_eq {mem : List UByte} {stop : ℤ} (hstop : 0 ≤ stop) (hle : stop ≤ mem.length) :
    ∃ bytes, slice mem 0 stop = .ok bytes ∧ (bytes.length : ℤ) = stop := by
  obtain ⟨bytes, hbytes⟩ := slice_of_le mem (le_refl 0) hstop hle
  have hlength := slice_length hbytes
  exact ⟨bytes, hbytes, by omega⟩

/-- The lengths that are read back from the memory of a packet. -/
theorem read_tcpMemory {mem : List UByte} {n : ℕ} (hn : 20 ≤ n) (hmem : n + 20 ≤ mem.length)
    (total size : UShort) :
    read16 (tcpMemory mem n total size) 2 = .ok total ∧
      readAt ((tcpMemory mem n total size).drop n) 12 =
        .ok (mem.getD (n + 12) 0 ||| (size / 4).toUInt8 <<< 4) := by
  constructor
  · rw [tcpMemory, orredWords, read16_set_ne (by omega), read16_setWord (by omega)]
  · rw [readAt_drop, tcpMemory, readAt_orredWords (by rw [setWord_length]; omega),
      setWord_getD_ne (by omega)]

theorem read_udpMemory {mem : List UByte} {n : ℕ} (hn : 20 ≤ n) (hmem : n + 8 ≤ mem.length)
    (total size : UShort) :
    read16 (udpMemory mem n total size) 2 = .ok total ∧
      read16 ((udpMemory mem n total size).drop n) 4 = .ok size := by
  constructor
  · rw [udpMemory, read16_setWord_ne (by omega), read16_setWord (by omega)]
  · rw [read16_drop, udpMemory, read16_setWord (by rw [setWord_length]; omega)]

theorem viewTcp_iff {transport : TcpPacketView} (h : Valid (.views (.tcp ip transport payload))) :
    LengthsRestored (.views (.tcp ip transport payload)) ↔
      LengthsFit (.views (.tcp ip transport payload)) := by
  rcases h with ⟨hadd, hoptions, hbegin, hend, hmem, hle, -⟩
  obtain ⟨n, hn⟩ := Int.eq_ofNat_of_zero_le (show 0 ≤ 20 + ip.addHeaderSize by omega)
  obtain ⟨total, htotal⟩ : ∃ total, UInt16.ofInt (20 + ip.addHeaderSize +
      (20 + transport.tcpOptionsSize) + (payload.2 - payload.1)) = total := ⟨_, rfl⟩
  obtain ⟨size, hsize⟩ : ∃ size, UInt16.ofInt (20 + transport.tcpOptionsSize) = size := ⟨_, rfl⟩
  have htotalNat : (total.toNat : ℤ) = 20 + ip.addHeaderSize + (20 + transport.tcpOptionsSize) +
      (payload.2 - payload.1) := by
    rw [← htotal, toNat_ofInt]
    omega
  have hsizeNat : (size.toNat : ℤ) = 20 + transport.tcpOptionsSize := by
    rw [← hsize, toNat_ofInt]
    omega
  have hrun : recalculateLengths (.views (.tcp ip transport payload)) = .ok (.views (.tcp
      { ip with header := tcpMemory ip.header n total size }
      ⟨(tcpMemory ip.header n total size).drop n, transport.tcpOptionsSize⟩ payload)) :=
    congrArg (Except.map views) (FullPacketView.recalculateLengths_tcp hn.symm (by omega) htotal
      hsize (by omega) (by omega))
  have hkeeps : KeepsOutside (tcpLengthsMask (20 + ip.addHeaderSize).toNat) ip.header
      (tcpMemory ip.header n total size) := by
    rw [hn, Int.toNat_natCast]
    apply (KeepsOutside.of_setWord rfl rfl _).trans (orredWords_keeps _ ?_ _)
    rw [tcpLengthsMask, if_neg (by omega), if_pos rfl]
  obtain ⟨hreadTotal, hreadWords⟩ := read_tcpMemory (show 20 ≤ n by omega)
    (show n + 20 ≤ ip.header.length by omega) total size
  obtain ⟨bytes, hbytes, hlength⟩ := viewBytes_eq (show 0 ≤ payload.2 by omega)
    (hmem.trans_eq (congrArg Nat.cast hkeeps.1.symm))
  have hgetter : TcpPacketView.getTcpHeaderLength
      ⟨(tcpMemory ip.header n total size).drop n, transport.tcpOptionsSize⟩ =
      .ok ((ip.header.getD (n + 12) 0 ||| (size / 4).toUInt8 <<< 4) >>> 4) := by
    rw [TcpPacketView.getTcpHeaderLength, hreadWords]
    rfl
  have hfit := words_bytes_iff (ip.header.getD (n + 12) 0) size
  apply (lengthsRestored_iff_of_ok hrun ⟨hkeeps, rfl, rfl, rfl⟩).trans
  rw [LengthsFit, hsize, hn, Int.toNat_natCast, ← hfit, LengthsHold, exists_ok_iff hgetter]
  constructor
  · rintro ⟨⟨total', bytes', htotal', hbytes', hsame⟩, hvalue⟩
    cases hreadTotal.symm.trans htotal'
    cases hbytes.symm.trans hbytes'
    dsimp only at hvalue
    exact ⟨by omega, by omega⟩
  · rintro ⟨hgap, hwords⟩
    refine ⟨⟨total, bytes, hreadTotal, hbytes, by omega⟩, ?_⟩
    dsimp only
    omega

theorem viewUdp_iff {transport : UdpPacketView} (h : Valid (.views (.udp ip transport payload))) :
    LengthsRestored (.views (.udp ip transport payload)) ↔
      LengthsFit (.views (.udp ip transport payload)) := by
  rcases h with ⟨hadd, hbegin, hend, hmem, hle, -⟩
  obtain ⟨n, hn⟩ := Int.eq_ofNat_of_zero_le (show 0 ≤ 20 + ip.addHeaderSize by omega)
  obtain ⟨total, htotal⟩ : ∃ total, UInt16.ofInt (20 + ip.addHeaderSize + 8 +
      (payload.2 - payload.1)) = total := ⟨_, rfl⟩
  have htotalNat : (total.toNat : ℤ) = payload.2 := by
    rw [← htotal, toNat_ofInt]
    omega
  have hrun : recalculateLengths (.views (.udp ip transport payload)) = .ok (.views (.udp
      { ip with header := udpMemory ip.header n total 8 }
      ⟨(udpMemory ip.header n total 8).drop n⟩ payload)) :=
    congrArg (Except.map views) (FullPacketView.recalculateLengths_udp hn.symm (by omega) htotal
      (by omega) (by omega))
  have hkeeps : KeepsOutside (udpLengthsMask (20 + ip.addHeaderSize).toNat) ip.header
      (udpMemory ip.header n total 8) := by
    rw [hn, Int.toNat_natCast]
    apply (KeepsOutside.of_setWord rfl rfl _).trans (KeepsOutside.of_setWord ?_ ?_ _)
    · exact if_pos (by omega)
    · exact if_pos (by omega)
  obtain ⟨hreadTotal, hreadLength⟩ := read_udpMemory (show 20 ≤ n by omega)
    (show n + 8 ≤ ip.header.length by omega) total 8
  obtain ⟨bytes, hbytes, hlength⟩ := viewBytes_eq (show 0 ≤ payload.2 by omega)
    (hmem.trans_eq (congrArg Nat.cast hkeeps.1.symm))
  have hgetter : UdpPacketView.getUdpLength ⟨(udpMemory ip.header n total 8).drop n⟩ = .ok 8 :=
    hreadLength
  have height : ((8 : UShort).toNat : ℤ) = 8 := rfl
  apply (lengthsRestored_iff_of_ok hrun ⟨hkeeps, rfl, rfl⟩).trans
  rw [LengthsFit, LengthsHold, exists_ok_iff hgetter, height]
  constructor
  · rintro ⟨-, hvalue⟩
    omega
  · intro hnone
    exact ⟨⟨total, bytes, hreadTotal, hbytes, by omega⟩, by omega⟩

end Views

/-- Recalculated lengths hold exactly for the packets whose sizes the setters can store. -/
theorem lengthsRestored_iff (p : FullPacketForm) (h : p.Valid) :
    p.LengthsRestored ↔ p.LengthsFit := by
  cases p with
  | fatTcp p => exact fatTcp_iff h
  | fatUdp p => exact fatUdp_iff h
  | views p =>
    cases p with
    | tcp ip transport payload => exact viewTcp_iff h
    | udp ip transport payload => exact viewUdp_iff h
    | dummy => exact absurd h id

/-- A packet whose TCP header of seven words still has the data offset five. -/
def sevenWords : Ipv4TcpFatPacket where
  net := ⟨[0x45, 0, 0, 0, 0, 1, 0, 0, 64, 6, 0, 0, 10, 0, 0, 1, 10, 0, 0, 2]⟩
  transport := ⟨HeaderSetting.fiveWords ++ [1, 1, 1, 1, 1, 1, 1, 1]⟩
  payload := [104, 105]
  data := []

/-- Seven words have all bits of five. -/
theorem lengthsRestored_sevenWords : (fatTcp sevenWords).LengthsRestored :=
  (lengthsRestored_iff (fatTcp sevenWords) ⟨by decide, by decide, by decide⟩).mpr
    (show HeaderSetting.BytesFit (sevenWords.transport.header.getD 12 0 >>> 4)
      (UInt16.ofNat sevenWords.transport.header.length) by decide)

/-- The same packet with a header of six words. -/
def sixWords : Ipv4TcpFatPacket :=
  { sevenWords with transport := ⟨HeaderSetting.fiveWords ++ [1, 1, 1, 1]⟩ }

/-- A view of a datagram of three bytes. -/
def datagramView : FullPacketView :=
  let mem : List UByte := [0x45, 0, 0, 31, 0, 1, 0, 0, 64, 17, 0, 0, 10, 0, 0, 1, 10, 0, 0, 2,
    0, 53, 4, 210, 0, 11, 0, 0, 1, 2, 3]
  .udp ⟨mem, 0⟩ ⟨mem.drop 20⟩ (28, 31)

/-- Six words over five are stored as seven, and a datagram gets the length of its header. -/
theorem lengths_not_restored : ((fatTcp sixWords).Valid ∧ ¬(fatTcp sixWords).LengthsRestored) ∧
    (views datagramView).Valid ∧ ¬(views datagramView).LengthsRestored := by
  have hsix : (fatTcp sixWords).Valid := ⟨by decide, by decide, by decide⟩
  have hdatagram : (views datagramView).Valid :=
    ⟨by decide, by decide, by decide, by decide, by decide, rfl⟩
  refine ⟨⟨hsix, fun h => ?_⟩, hdatagram, fun h => ?_⟩
  · exact absurd ((fatTcp_iff hsix).mp h) (show ¬HeaderSetting.BytesFit
      (sixWords.transport.header.getD 12 0 >>> 4)
      (UInt16.ofNat sixWords.transport.header.length) by decide)
  · exact absurd ((viewUdp_iff hdatagram).mp h) (show ¬(28 : ℤ) = 31 by decide)

end FullPacketForm

/-- The owner of the memory that views are over. -/
def FullPacketView.owner : FullPacketView → FullPacketObject
  | .tcp ip _ _ => .tcp ip.header
  | .udp ip _ _ => .udp ip.header
  | .dummy => .dummy

/-- A packet that owns its bytes recalculates the lengths through views over them. -/
theorem FullPacketObject.recalculateLengths_view (packet : FullPacketObject) :
    packet.recalculateLengths = (do
      let view ← packet.view
      let view ← view.recalculateLengths
      return view.owner) := by
  cases packet with
  | tcp data =>
    rw [recalculateLengths, view, FullPacketView.ipv4Tcp, bind_assoc]
    apply bind_congr
    intro ip
    rw [bind_assoc]
    apply bind_congr
    intro transport
    rw [pure_bind, FullPacketView.recalculateLengths, bind_assoc]
    apply bind_congr
    intro ip
    rw [bind_assoc]
    rfl
  | udp data =>
    rw [recalculateLengths, view, FullPacketView.ipv4Udp, bind_assoc]
    apply bind_congr
    intro ip
    rw [pure_bind, FullPacketView.recalculateLengths, bind_assoc]
    apply bind_congr
    intro ip
    rw [bind_assoc]
    rfl
  | dummy => rfl

end QVPN
