import QVPN.Driver.Dissector
import QVPN.Lib.Prefixed
import QVPN.Properties.DecodeSafety
import QVPN.Properties.IdIndependence
import QVPN.Properties.InjectedProtocol
import Mathlib.Data.Nat.Bitwise

/-!
# The dissector agrees with the decoder

The drivers and the dissector parse the same records, each in its own way: the decoder cuts the
record off, takes the packet in and reads its fields from the front, and the dissector reads at
fixed positions of the rest of the segment. Of records that are decoded to IPv4 packets, each from
one record, the dissector shows every field as it was decoded.
-/

namespace QVPN

open BigEndian Memory QVPNLayersSettings QVPNPacketManager WireShark

/-- The bytes that a packet with addresses of four bytes was decoded from. -/
theorem QTunnelData.encode_of_ofBytes {data : List UByte} {packet : QTunnelData}
    (h : ofBytes data = .ok packet) (hnet : packet.netProtocol = .IPv4) :
    packet.encode packet.data = data := by
  obtain ⟨hlength, -⟩ := ofBytes_addrs h hnet
  obtain ⟨rest, body, size, protoBytes, hfrom⟩ := exists_decodedFrom h
  have haddrs := hfrom.addrs
  rw [readAddrsByProtocol, if_pos hnet] at haddrs
  obtain ⟨hsrc, hsrcPort, hdst, hdstPort⟩ := readAddrs_eq_ok_iff.mp haddrs
  obtain ⟨-, hrest⟩ := eraseFront_eq_ok_iff.mp hfrom.rest_eq
  obtain ⟨-, hbody⟩ := eraseFront_eq_ok_iff.mp hfrom.body_eq
  obtain ⟨-, hpayload⟩ := eraseFront_eq_ok_iff.mp hfrom.payload
  rw [NetAddr.getAddrSize, hlength] at hbody
  have hfront : data = packet.netProtocol.val :: packet.transportProtocol.val :: rest := by
    rw [hrest, ← drop_of_readAt hfrom.transport, ← drop_of_readAt hfrom.net, List.drop_zero]
  have haddr : rest = packet.sourceAddr.ip ++ (bytes16 packet.sourcePort ++
      (packet.dstAddr.ip ++ (bytes16 packet.dstPort ++ body))) := by
    rw [hbody, ← drop_of_read16 hdstPort, ← drop_of_slice hdst, ← drop_of_read16 hsrcPort,
      ← drop_of_slice hsrc, List.drop_zero]
  have htail : body = bytes16 size ++ (protoBytes ++ packet.data) := by
    rw [hpayload, ← drop_of_slice hfrom.slice_eq, ← drop_of_read16 hfrom.size_eq, List.drop_zero]
  rw [hfront, haddr, htail]
  simp only [QTunnelProxy.encode, QTunnelProxy.headerBytes, hfrom.protoData,
    QTunnelProtoData.ofLength, List.append_assoc, List.cons_append, List.nil_append]

/-- The proto data of a decoded packet is as long as its length says. -/
theorem QTunnelData.ofBytes_protoData {data : List UByte} {packet : QTunnelData}
    (h : ofBytes data = .ok packet) : packet.protoData.WellFormed := by
  obtain ⟨rest, body, size, protoBytes, hfrom⟩ := exists_decodedFrom h
  have hlength := slice_length hfrom.slice_eq
  exact ⟨size, protoBytes, hfrom.protoData, by omega⟩

/-- A record with a whole packet. -/
structure HoldsWhole (record : List UByte) (p : QTunnelData) (version : UShort) (id : UByte) :
    Prop where
  size : (p.encode p.data).length ≤ 65525
  record_eq : record = [23] ++ (bytes16 version ++
    (bytes16 (UInt16.ofNat (5 + (p.encode p.data).length)) ++
      (PacketBuilderData.bytes ⟨id, 0, UInt16.ofNat (p.encode p.data).length⟩ ++
        p.encode p.data)))

/-- Such a record is ten bytes longer than its packet. -/
theorem HoldsWhole.length_eq {record : List UByte} {p : QTunnelData} {version : UShort} {id : UByte}
    (h : HoldsWhole record p version id) : record.length = 10 + (p.encode p.data).length := by
  rw [h.record_eq]
  simp only [List.length_append, List.length_singleton, bytes16_length,
    PacketBuilderData.bytes_length]
  omega

/-- A record whose packet is read back as it is. -/
structure HoldsDecoded (record : List UByte) (p : QTunnelData) : Prop where
  whole : ∃ version id, HoldsWhole record p version id
  decodes : QTunnelData.ofBytes (p.encode p.data) = .ok p
  net : p.netProtocol = .IPv4

theorem HoldsDecoded.length_ge {record : List UByte} {p : QTunnelData} (h : HoldsDecoded record p) :
    26 ≤ record.length := by
  obtain ⟨⟨version, id, hwhole⟩, hdecodes, hnet⟩ := h
  obtain ⟨hsrc, hdst⟩ := QTunnelData.ofBytes_addrs hdecodes hnet
  obtain ⟨length, bytes, heq, -⟩ := QTunnelData.ofBytes_protoData hdecodes
  rw [hwhole.length_eq]
  simp only [QTunnelProxy.encode, QTunnelProxy.headerBytes, heq, QTunnelProtoData.ofLength,
    List.length_append, List.length_cons, List.length_nil, bytes16_length, hsrc, hdst]
  omega

section Decoded

variable {m m' : QVPNPacketManager} {record : List UByte}

/-- A manager without builders completes a packet only from a message with all of it. -/
theorem popIfFull_whole (hm : m.Empty) (hcached : m.cached = none) {message data : List UByte}
    (h : (m.buildPacket message).2.popIfFull = .ok (some data, m')) :
    (∃ id, message = PacketBuilderData.bytes ⟨id, 0, UInt16.ofNat data.length⟩ ++ data) ∧
      m'.Empty ∧ m'.cached = none := by
  have hsettled := hm.settled hcached
  obtain hrefused | ⟨id, offset, size, body, rfl, hadm⟩ := buildPacket_refused_or m message
  · rw [hrefused, popIfFull_of_none hsettled.none_full] at h
    cases Except.ok.inj h
  · rw [buildPacket_new hadm (hm id), popIfFull_update hsettled, PacketBuilder.takeOut] at h
    split at h
    · next hfull =>
      have hbuilder : PacketBuilder.ofFragment offset size body =
          ⟨size, body, body.length == size.toNat⟩ := by
        simp [PacketBuilder.ofFragment, PacketBuilder.addData]
      rw [hbuilder] at h hfull
      have hsize : body.length = size.toNat := by simpa using hfull
      obtain ⟨-, hle⟩ := hadm
      have hoffset : offset = 0 := by
        rw [← UInt16.toNat_inj]
        change offset.toNat = 0
        omega
      cases Except.ok.inj h
      refine ⟨⟨id, ?_⟩, ?_, hcached⟩
      · rw [hoffset, hsize, UInt16.ofNat_toNat]
      · intro other
        change Function.update m.packets id none other = none
        by_cases hother : other = id
        · rw [hother, Function.update_self]
        · rw [Function.update_of_ne hother, hm other]
    · cases Except.ok.inj h

/-- A record that completes an IPv4 packet by itself holds all of it. -/
theorem decodeData_whole (hm : m.Empty) (hcached : m.cached = none)
    (hrecord : TLS13Record.WellFormed record) (htype : record.head? = some 23) {p : QTunnelData}
    (h : decodeData defaultLayers m record = .ok (some p, m')) (hnet : p.netProtocol = .IPv4) :
    HoldsDecoded record p ∧ m'.Empty ∧ m'.cached = none := by
  obtain ⟨head, body, rfl, hhead, hbody⟩ := hrecord
  have hbodyOf : recordBody (head ++ bytes16 (UInt16.ofNat body.length) ++ body) = body := by
    have hfront : (head ++ bytes16 (UInt16.ofNat body.length)).length = 5 := by
      rw [List.length_append, hhead, bytes16_length]
    rw [recordBody, List.drop_left' hfront, List.length_append, hfront]
    exact List.take_of_length_le (by omega)
  obtain ⟨message, hmessage, hbuilt⟩ := bind_eq_ok_iff.mp h
  rw [layersDecode_default, layerDecode_eq, if_pos (by simp [hhead]; omega), hbodyOf] at hmessage
  cases Except.ok.inj hmessage
  obtain ⟨⟨packet, m''⟩, hpop, hread⟩ := bind_eq_ok_iff.mp hbuilt
  cases packet with
  | none => cases Except.ok.inj hread
  | some data =>
    obtain ⟨p', hdecoded, hread⟩ := bind_eq_ok_iff.mp hread
    cases Except.ok.inj hread
    obtain ⟨⟨id, hwhole⟩, hempty, hnone⟩ := popIfFull_whole hm hcached hpop
    have hdata := QTunnelData.encode_of_ofBytes hdecoded hnet
    rw [hwhole, List.length_append, PacketBuilderData.bytes_length] at hbody
    obtain ⟨t, v1, v0, rfl⟩ := List.length_eq_three.mp hhead
    cases htype
    refine ⟨⟨⟨join v1 v0, id, by rw [hdata]; omega, ?_⟩, by rw [hdata, hdecoded], hnet⟩, hempty,
      hnone⟩
    have hversion : bytes16 (join v1 v0) = [v1, v0] := by
      rw [bytes16, hi_join, lo_join]
    rw [hdata, hwhole, List.length_append, PacketBuilderData.bytes_length, hversion]
    rfl

/-- Records of which each completes a packet hold these packets. -/
theorem decodeRecords_whole (hm : m.Empty) (hcached : m.cached = none)
    {records : List (List UByte)} (hrecords : ∀ record ∈ records, TLS13Record.WellFormed record)
    (htype : ∀ record ∈ records, record.head? = some 23) {packets : List QTunnelData}
    (h : decodeRecords defaultLayers m records = .ok (packets.map some, m'))
    (hnet : ∀ p ∈ packets, p.netProtocol = .IPv4) : List.Forall₂ HoldsDecoded records packets := by
  induction records generalizing m packets with
  | nil =>
    obtain ⟨hnone, -⟩ := Prod.mk.inj (Except.ok.inj h)
    rw [List.map_eq_nil_iff.mp hnone.symm]
    exact .nil
  | cons record records ih =>
    obtain ⟨⟨first, m₁⟩, hdecode, h⟩ := bind_eq_ok_iff.mp h
    obtain ⟨⟨later, m₂⟩, hlater, h⟩ := bind_eq_ok_iff.mp h
    obtain ⟨hpackets, rfl⟩ := Prod.mk.inj (Except.ok.inj h)
    obtain ⟨p, packets, rfl, rfl, rfl⟩ := List.map_eq_cons_iff.mp hpackets.symm
    obtain ⟨hrecord, hrecords⟩ := List.forall_mem_cons.mp hrecords
    obtain ⟨hfirst, htype⟩ := List.forall_mem_cons.mp htype
    obtain ⟨hp, hnet⟩ := List.forall_mem_cons.mp hnet
    obtain ⟨hholds, hempty, hnone⟩ := decodeData_whole hm hcached hrecord hfirst hdecode hp
    exact .cons hholds (ih hempty hnone hrecords htype hlater hnet)

end Decoded

/-- The analyzer reads numbers as the formats of length-prefixed parts do. -/
theorem uint_eq_value : uint = Prefixed.value := rfl

theorem uint_single (b : UByte) : uint [b] = b.toNat := by
  rw [uint_eq_value, Prefixed.value_byte]

theorem uint_bytes16 (v : UInt16) : uint (bytes16 v) = v.toNat := by
  rw [uint_eq_value, Prefixed.value_bytes16]

theorem uint_bytes32 (v : UInt32) : uint (bytes32 v) = v.toNat := by
  rw [uint_eq_value, Prefixed.value_bytes32]

namespace WireShark.Analyzer.Lawful

variable {lib : Analyzer} (hlib : lib.Lawful)
include hlib

/-- A range is what comes first from its offset on. -/
theorem range_of_drop {buffer ys zs : List UByte} {offset : ℕ} {length : ℤ}
    (h : buffer.drop offset = ys ++ zs) (hoffset : offset ≤ buffer.length)
    (hlength : length = ys.length) : lib.range buffer offset length = .ok ys := by
  have hsize := congrArg List.length h
  rw [List.length_drop, List.length_append] at hsize
  rw [hlength, hlib.range_eq _ _ _ (by omega), h, List.take_left]

/-- A field of some bytes is a range, and the next field begins where it ends. -/
theorem range_next {buffer ys zs : List UByte} {i j : ℕ} {l : ℤ} (h : buffer.drop i = ys ++ zs)
    (hnext : j = i + ys.length) (hlength : l = ys.length) (hsome : i < j) :
    lib.range buffer i l = .ok ys ∧ buffer.drop j = zs := by
  have hsize := congrArg List.length h
  rw [List.length_drop, List.length_append] at hsize
  refine ⟨hlib.range_of_drop h (by omega) hlength, ?_⟩
  rw [hnext]
  exact drop_behind h rfl

/-- A byte, read in front of more. -/
theorem range8 {xs : List UByte} {i : ℕ} {b : UByte} (h : readAt xs i = .ok b)
    (more : List UByte) : lib.range (xs ++ more) i 1 = .ok [b] := by
  have hi := lt_of_readAt h
  have hdrop : (xs ++ more).drop i = [b] ++ (xs.drop (i + 1) ++ more) := by
    rw [List.drop_append_of_le_length (by omega), drop_of_readAt h]
    rfl
  exact hlib.range_of_drop hdrop (by simp; omega) rfl

/-- A word, read in front of more. -/
theorem range16 {xs : List UByte} {i : ℕ} {v : UInt16} (h : read16 xs i = .ok v)
    (more : List UByte) : lib.range (xs ++ more) i 2 = .ok (bytes16 v) := by
  have hi := read16_lt h
  have hdrop : (xs ++ more).drop i = bytes16 v ++ (xs.drop (i + 2) ++ more) := by
    rw [List.drop_append_of_le_length (by omega), drop_of_read16 h, List.append_assoc]
  exact hlib.range_of_drop hdrop (by simp; omega) rfl

/-- A double word, read in front of more. -/
theorem range32 {xs : List UByte} {i : ℕ} {v : UInt32} (h : read32 xs i = .ok v)
    (hi : i ≤ xs.length) (more : List UByte) : lib.range (xs ++ more) i 4 = .ok (bytes32 v) := by
  have hdrop : (xs ++ more).drop i = bytes32 v ++ (xs.drop (i + 4) ++ more) := by
    rw [List.drop_append_of_le_length hi, drop_of_read32 h, List.append_assoc]
  exact hlib.range_of_drop hdrop (by simp; omega) rfl

end WireShark.Analyzer.Lawful

/-- The low bit of a word. -/
theorem and_one_eq_one_iff (v : UInt16) : (v &&& 0x1).toUInt8 = 1 ↔ v.toNat % 2 = 1 := by
  rw [← UInt8.toNat_inj, UInt16.toNat_toUInt8, UInt16.toNat_and]
  change (v.toNat &&& 1) % 256 = 1 ↔ _
  rw [Nat.and_one_is_mod]
  omega

/-- The mask of a bit, and the shift that reads it. -/
theorem and_mask_ne_zero_iff (v : UInt16) {k : ℕ} (hk : k < 16) :
    v.toNat &&& 2 ^ k ≠ 0 ↔ (v >>> UInt16.ofNat k &&& 0x1).toUInt8 = 1 := by
  have hmask : v.toNat &&& 2 ^ k = v.toNat / 2 ^ k % 2 * 2 ^ k := by
    rw [← Nat.toNat_testBit v.toNat k]
    exact Nat.and_two_pow v.toNat k
  have hshift : (v >>> UInt16.ofNat k).toNat = v.toNat / 2 ^ k := by
    rw [UInt16.toNat_shiftRight, UInt16.toNat_ofNat', Nat.mod_eq_of_lt (by omega : k < 2 ^ 16),
      Nat.mod_eq_of_lt hk, Nat.shiftRight_eq_div_pow]
  have hpos := Nat.two_pow_pos k
  rw [and_one_eq_one_iff, hmask, hshift, Nat.mul_ne_zero_iff]
  omega

/-- The drivers' own getters, under the names that the dissector has for the flags. -/
def flagGetters : List (String × (TcpFlagsObject → UByte)) :=
  [("FIN", TcpFlagsObject.getFin), ("SYN", TcpFlagsObject.getSyn), ("RST", TcpFlagsObject.getRst),
    ("PSH", TcpFlagsObject.getPsh), ("ACK", TcpFlagsObject.getAck), ("URG", TcpFlagsObject.getUrg),
    ("ECE", TcpFlagsObject.getEcn), ("CWR", TcpFlagsObject.getCwr), ("NS", TcpFlagsObject.getNs)]

/-- The names of the flags that are set are those whose getters read a one. -/
theorem flagsSet_eq (f : TcpFlagsObject) :
    flagsSet f.flags.toNat = (flagGetters.filter fun flag => flag.2 f = 1).map Prod.fst := by
  have hagree : List.Forall₂ (fun (name : ℕ × String) (getter : String × (TcpFlagsObject → UByte)) =>
      name.2 = getter.1 ∧ (f.flags.toNat &&& name.1 ≠ 0 ↔ getter.2 f = 1)) flagsNames flagGetters := by
    have hbit (k : ℕ) (hk : k < 16) := and_mask_ne_zero_iff f.flags hk
    have hfin := hbit 0 (by decide)
    rw [show f.flags >>> UInt16.ofNat 0 = f.flags from UInt16.shiftRight_zero] at hfin
    exact .cons ⟨rfl, hfin⟩ (.cons ⟨rfl, hbit 1 (by decide)⟩ (.cons ⟨rfl, hbit 2 (by decide)⟩
      (.cons ⟨rfl, hbit 3 (by decide)⟩ (.cons ⟨rfl, hbit 4 (by decide)⟩
      (.cons ⟨rfl, hbit 5 (by decide)⟩ (.cons ⟨rfl, hbit 6 (by decide)⟩
      (.cons ⟨rfl, hbit 7 (by decide)⟩ (.cons ⟨rfl, hbit 8 (by decide)⟩ .nil))))))))
  rw [flagsSet]
  generalize flagsNames = names at hagree
  generalize flagGetters = getters at hagree
  induction hagree with
  | nil => rfl
  | @cons name getter names getters h _ ih =>
    obtain ⟨hname, hset⟩ := h
    by_cases hone : getter.2 f = 1
    · rw [List.filter_cons_of_pos (by simpa using hset.mpr hone),
        List.filter_cons_of_pos (by simpa using hone), List.map_cons, List.map_cons, ih, hname]
    · rw [List.filter_cons_of_neg (by simpa using mt hset.mp hone),
        List.filter_cons_of_neg (by simpa using hone), ih]

/-- The fields of TCP are shown as the drivers' own getters read them. -/
structure ShowsTcp (s : QTunnelTCPViewScheme) (tree : TcpTree) : Prop where
  length : tree.length + 2 = s.data.length
  seq : s.getSeq.map UInt32.toNat = .ok tree.seq
  ack : s.getAck.map UInt32.toNat = .ok tree.ack
  flags : ∃ flags, s.getFlags = .ok flags ∧ tree.flags = flags.flags.toNat ∧
    tree.flagsSet = (flagGetters.filter fun flag => flag.2 flags = 1).map Prod.fst
  offset : s.getOffset.map UInt8.toNat = .ok tree.offset
  window : s.getWindow.map UInt16.toNat = .ok tree.window
  urgent : s.getUrgentPointer.map UInt16.toNat = .ok tree.urgent
  options : s.getOptions = .ok tree.options

/-- The fields of a packet are shown as they were decoded. -/
structure ShowsPacket (p : QTunnelData) (tree : QTunnelTree) : Prop where
  netProto : tree.netProto = p.netProtocol.val.toNat
  transportProto : tree.transportProto = p.transportProtocol.val.toNat
  src : tree.src = p.sourceAddr.ip
  srcPort : tree.srcPort = p.sourcePort.toNat
  dst : tree.dst = p.dstAddr.ip
  dstPort : tree.dstPort = p.dstPort.toNat
  tcp : if p.transportProtocol = .TCP then
      ∃ tcp, tree.tcp = some tcp ∧ ShowsTcp (.ofBytes p.protoData.data) tcp
    else tree.tcp = none

/-- A record is shown with its version, its length and its id, as one whole packet. -/
structure Shows (record : List UByte) (p : QTunnelData) (tree : RecordTree) : Prop where
  type : tree.type = 23
  version : tree.version = (join (record.getD 1 0) (record.getD 2 0)).toNat
  length : tree.length = 5 + (p.encode p.data).length
  id : tree.builder.id = (record.getD 5 0).toNat
  offset : tree.builder.offset = 0
  origSize : tree.builder.origSize = (p.encode p.data).length
  packet : ShowsPacket p tree.qtunnel

/-- Proto data of TCP that the dissector can read when so many bytes follow it. -/
def QTunnelData.Dissectable (p : QTunnelData) (behind : ℕ) : Prop :=
  p.transportProtocol = .TCP → 17 ≤ p.protoData.data.length ∧
    17 < p.protoData.data.length + p.data.length + behind

instance (p : QTunnelData) (behind : ℕ) : Decidable (p.Dissectable behind) :=
  inferInstanceAs (Decidable (p.transportProtocol = .TCP → 17 ≤ p.protoData.data.length ∧
    17 < p.protoData.data.length + p.data.length + behind))

/-- The more follows, the better. -/
theorem QTunnelData.Dissectable.mono {p : QTunnelData} {m n : ℕ} (h : p.Dissectable m)
    (hle : m ≤ n) : p.Dissectable n := by
  intro htcp
  obtain ⟨hfixed, hmore⟩ := h htcp
  exact ⟨hfixed, by omega⟩

section Shown

variable {lib : Analyzer} (hlib : lib.Lawful)
include hlib

/-- Proto data of TCP, in front of more. -/
theorem parseTcpProtoData_shows {p : QTunnelProtoData} (hp : p.WellFormed)
    (hfixed : 17 ≤ p.data.length) (hsize : p.data.length ≤ 65535) {more : List UByte}
    (hmore : 17 < (p.data ++ more).length) :
    ∃ tree info, parseTcpProtoData lib (p.data ++ more) = .ok (tree, info) ∧
      ShowsTcp (.ofBytes p.data) tree := by
  obtain ⟨length, bytes, rfl, hlength⟩ := hp
  have hcount : (QTunnelProtoData.ofLength length bytes).data.length = length.toNat + 2 := by
    rw [QTunnelProtoData.ofLength, List.length_append, bytes16_length, hlength, Nat.add_comm]
  have hread : read16 (QTunnelProtoData.ofLength length bytes).data 0 = .ok length :=
    read16_append [] length bytes
  generalize (QTunnelProtoData.ofLength length bytes).data = data at *
  obtain ⟨seq, hseq⟩ := read32_of_lt (show 2 + 3 < data.length by omega)
  obtain ⟨ack, hack⟩ := read32_of_lt (show 6 + 3 < data.length by omega)
  obtain ⟨flags, hflags⟩ := read16_of_lt (show 10 + 1 < data.length by omega)
  obtain ⟨offset, hoffset⟩ := readAt_of_lt (show 12 < data.length by omega)
  obtain ⟨window, hwindow⟩ := read16_of_lt (show 13 + 1 < data.length by omega)
  obtain ⟨urgent, hurgent⟩ := read16_of_lt (show 15 + 1 < data.length by omega)
  have hdrop : (data ++ more).drop 17 = data.drop 17 ++ more :=
    List.drop_append_of_le_length hfixed
  have hrest := hlib.rest_eq _ _ hmore
  have hoptions : lib.range (data ++ more) 17 (uint (bytes16 length) - 15) = .ok (data.drop 17) :=
    hlib.range_of_drop hdrop (by omega) (by rw [uint_bytes16, List.length_drop]; omega)
  obtain ⟨info, hparse⟩ : ∃ info, parseTcpProtoData lib (data ++ more) =
      .ok (⟨length.toNat, seq.toNat, ack.toNat, flags.toNat, flagsSet flags.toNat, offset.toNat,
        window.toNat, urgent.toNat, data.drop 17⟩, info) := by
    rw [parseTcpProtoData, hlib.range16 hread, ok_bind, hlib.range32 hseq (by omega), ok_bind,
      hlib.range32 hack (by omega), ok_bind, hlib.range16 hflags, ok_bind, hlib.range8 hoffset,
      ok_bind, hlib.range16 hwindow, ok_bind, hlib.range16 hurgent, ok_bind, hrest, ok_bind,
      hoptions]
    simp only [uint_bytes16, uint_bytes32, uint_single]
    exact ⟨_, rfl⟩
  have hwhole : (UInt16.ofNat data.length).toNat = data.length := ofNat_toNat_of_le hsize
  refine ⟨_, info, hparse, hcount.symm, ?_, ?_, ⟨⟨flags⟩, ?_, rfl, flagsSet_eq ⟨flags⟩⟩,
    ?_, ?_, ?_, ?_⟩
  · rw [QTunnelTCPViewScheme.getSeq, QTunnelTCPViewScheme.ofBytes, hseq]
    rfl
  · rw [QTunnelTCPViewScheme.getAck, QTunnelTCPViewScheme.ofBytes, hack]
    rfl
  · rw [QTunnelTCPViewScheme.getFlags, QTunnelTCPViewScheme.ofBytes, hflags]
    rfl
  · rw [QTunnelTCPViewScheme.getOffset, QTunnelTCPViewScheme.ofBytes, hoffset]
    rfl
  · rw [QTunnelTCPViewScheme.getWindow, QTunnelTCPViewScheme.ofBytes, hwindow]
    rfl
  · rw [QTunnelTCPViewScheme.getUrgentPointer, QTunnelTCPViewScheme.ofBytes, hurgent]
    rfl
  · have hfrom : (if data.length > 17 then 17 else (data.length : ℤ)) = 17 := by
      split <;> omega
    rw [QTunnelTCPViewScheme.getOptions, QTunnelTCPViewScheme.ofBytes, hwhole, hfrom]
    have hslice := slice_drop hfixed [] rfl rfl
    rwa [List.append_nil] at hslice

/-- A packet, in front of more. -/
theorem parseQTunnelProto_shows {p : QTunnelData} (hsrc : p.sourceAddr.ip.length = 4)
    (hdst : p.dstAddr.ip.length = 4) (hproto : p.protoData.WellFormed)
    (hsize : (p.encode p.data).length ≤ 65535) {behind : List UByte}
    (hp : p.Dissectable behind.length) :
    ∃ tree info, parseQTunnelProto lib (p.encode p.data ++ behind) = .ok (tree, info) ∧
      ShowsPacket p tree := by
  have hcount : 2 + p.protoData.data.length ≤ (p.encode p.data).length := by
    simp only [QTunnelProxy.encode, QTunnelProxy.headerBytes, List.length_append, List.length_cons]
    omega
  have hne : p.protoData.data ≠ [] := by
    obtain ⟨length, bytes, heq, -⟩ := hproto
    rw [heq]
    exact List.cons_ne_nil _ _
  obtain ⟨buffer, hbuffer⟩ : ∃ buffer, buffer = p.encode p.data ++ behind := ⟨_, rfl⟩
  have hfront : buffer = [p.netProtocol.val] ++ ([p.transportProtocol.val] ++
      (p.sourceAddr.ip ++ (bytes16 p.sourcePort ++ (p.dstAddr.ip ++ (bytes16 p.dstPort ++
        (p.protoData.data ++ (p.data ++ behind))))))) := by
    rw [hbuffer, QTunnelProxy.encode, QTunnelProxy.headerBytes]
    simp only [List.append_assoc, List.cons_append, List.nil_append]
  have hlength : 14 < buffer.length := by
    have hpos := List.length_pos_iff.mpr hne
    rw [hfront]
    simp only [List.length_append, List.length_singleton, bytes16_length]
    omega
  have h0 : buffer.drop 0 = _ := hfront
  obtain ⟨hread0, h1⟩ := hlib.range_next (j := 1) (l := 1) h0 rfl rfl (by omega)
  obtain ⟨hread1, h2⟩ := hlib.range_next (j := 2) (l := 1) h1 rfl rfl (by omega)
  obtain ⟨hread2, h6⟩ :=
    hlib.range_next (j := 6) (l := 4) h2 (by rw [hsrc]) (by rw [hsrc]; rfl) (by omega)
  obtain ⟨hread6, h8⟩ := hlib.range_next (j := 8) (l := 2) h6 rfl rfl (by omega)
  obtain ⟨hread8, h12⟩ :=
    hlib.range_next (j := 12) (l := 4) h8 (by rw [hdst]) (by rw [hdst]; rfl) (by omega)
  obtain ⟨hread12, h14⟩ := hlib.range_next (j := 14) (l := 2) h12 rfl rfl (by omega)
  have hrest : lib.rest buffer 14 = .ok (p.protoData.data ++ (p.data ++ behind)) := by
    rw [hlib.rest_eq _ _ hlength, h14]
  rw [← hbuffer, parseQTunnelProto, hread0, ok_bind, hread1, ok_bind, hread2, ok_bind, hread6,
    ok_bind, hread8, ok_bind, hread12, ok_bind, hrest, ok_bind]
  dsimp only
  simp only [uint_bytes16, uint_single]
  by_cases htcp : p.transportProtocol = .TCP
  · obtain ⟨hfixed, hmore⟩ := hp htcp
    obtain ⟨tcp, more, hparse, hshows⟩ := parseTcpProtoData_shows hlib hproto hfixed (by omega)
      (show 17 < (p.protoData.data ++ (p.data ++ behind)).length by
        rw [List.length_append, List.length_append]; omega)
    have hsix : p.transportProtocol.val.toNat = 6 := by rw [htcp]; rfl
    rw [if_pos hsix, hparse]
    exact ⟨_, _, rfl, rfl, rfl, rfl, rfl, rfl, rfl, by rw [if_pos htcp]; exact ⟨tcp, rfl, hshows⟩⟩
  · have hsix : p.transportProtocol.val.toNat ≠ 6 := by
      intro hval
      exact htcp (congrArg TransportProtocol.mk (UInt8.toNat_inj.mp hval))
    rw [if_neg hsix]
    exact ⟨_, _, rfl, rfl, rfl, rfl, rfl, rfl, rfl, by rw [if_neg htcp]⟩

/-- The header in front of a fragment. -/
theorem packetBuilder_bytes (pb : PacketBuilderData) (more : List UByte) :
    ∃ text, packetBuilder lib (pb.bytes ++ more) =
      .ok ⟨text, pb.packetId.toNat, pb.offset.toNat, pb.originalSize.toNat⟩ := by
  obtain ⟨id, offset, size⟩ := pb
  have h0 : (PacketBuilderData.bytes ⟨id, offset, size⟩ ++ more).drop 0 =
      [id] ++ (bytes16 offset ++ (bytes16 size ++ more)) := rfl
  obtain ⟨hid, h1⟩ := hlib.range_next (j := 1) (l := 1) h0 rfl rfl (by omega)
  obtain ⟨hoffset, h3⟩ := hlib.range_next (j := 3) (l := 2) h1 rfl rfl (by omega)
  obtain ⟨hsize, -⟩ := hlib.range_next (j := 5) (l := 2) h3 rfl rfl (by omega)
  rw [packetBuilder, hid, ok_bind, hoffset, ok_bind, hsize, ok_bind]
  simp only [uint_bytes16, uint_single]
  exact ⟨_, rfl⟩

/-- A record in a segment. -/
theorem parseRecord_shows {record : List UByte} {p : QTunnelData} (h : HoldsDecoded record p)
    (front : List UByte) {behind : List UByte} (hp : p.Dissectable behind.length) :
    ∃ tree, parseRecord lib (front ++ (record ++ behind)) front.length =
        .ok (.record tree, some (record.length - 5)) ∧ Shows record p tree := by
  obtain ⟨⟨version, id, hwhole⟩, hdecodes, hnet⟩ := h
  have hlength := hwhole.length_eq
  obtain ⟨hsize, hrecord⟩ := hwhole
  obtain ⟨hsrc, hdst⟩ := QTunnelData.ofBytes_addrs hdecodes hnet
  have hproto := QTunnelData.ofBytes_protoData hdecodes
  obtain ⟨buffer, hbuffer⟩ : ∃ buffer, buffer = front ++ (record ++ behind) := ⟨_, rfl⟩
  have hcount : buffer.length = front.length + (10 + (p.encode p.data).length + behind.length) := by
    rw [hbuffer, List.length_append, List.length_append, hlength]
  have hne : 0 < (p.encode p.data).length :=
    List.length_pos_iff.mpr (QTunnelProxy.encode_ne_nil _ _)
  have h0 : buffer.drop front.length = [23] ++ (bytes16 version ++
      (bytes16 (UInt16.ofNat (5 + (p.encode p.data).length)) ++
        (PacketBuilderData.bytes ⟨id, 0, UInt16.ofNat (p.encode p.data).length⟩ ++
          (p.encode p.data ++ behind)))) := by
    rw [hbuffer, List.drop_left, hrecord]
    simp only [List.append_assoc]
  obtain ⟨htype, h1⟩ := hlib.range_next (j := front.length + 1) (l := 1) h0 rfl rfl (by omega)
  obtain ⟨hversion, h3⟩ := hlib.range_next (j := front.length + 3) (l := 2) h1 rfl rfl (by omega)
  obtain ⟨hread3, h5⟩ := hlib.range_next (j := front.length + 5) (l := 2) h3 rfl rfl (by omega)
  have hpayload : lib.rest buffer (front.length + 5) =
      .ok (PacketBuilderData.bytes ⟨id, 0, UInt16.ofNat (p.encode p.data).length⟩ ++
        (p.encode p.data ++ behind)) := by
    rw [hlib.rest_eq _ _ (by omega), h5]
  have hpacket : lib.rest buffer (front.length + 5 + 5) = .ok (p.encode p.data ++ behind) := by
    rw [hlib.rest_eq _ _ (by omega), drop_behind (n := 5) h5 rfl]
  obtain ⟨text, hbuilder⟩ := packetBuilder_bytes hlib
    ⟨id, 0, UInt16.ofNat (p.encode p.data).length⟩ (p.encode p.data ++ behind)
  obtain ⟨qtunnel, info, hqtunnel, hshows⟩ :=
    parseQTunnelProto_shows hlib hsrc hdst hproto (by omega) hp
  have hword : (UInt16.ofNat (5 + (p.encode p.data).length)).toNat = record.length - 5 := by
    rw [ofNat_toNat_of_le (by omega)]
    omega
  rw [← hbuffer, parseRecord, htype, ok_bind, hversion, ok_bind, hread3, ok_bind,
    if_neg (by rw [uint_single]; decide), hpayload, ok_bind, hbuilder, ok_bind, hpacket, ok_bind,
    hqtunnel, ok_bind]
  dsimp only
  simp only [uint_bytes16, uint_single, hword]
  refine ⟨_, rfl, rfl, ?_, ?_, ?_, rfl, ofNat_toNat_of_le (by omega), hshows⟩
  · rw [hrecord]
    exact (congrArg UInt16.toNat (join_hi_lo version)).symm
  · dsimp only
    omega
  · rw [hrecord]
    rfl

/-- The records of a segment, from one of them on. -/
theorem parseFakeTls_shows {records : List (List UByte)} {packets : List QTunnelData}
    (h : List.Forall₂ HoldsDecoded records packets) (hall : ∀ p ∈ packets, p.Dissectable 1)
    (hlast : ∀ p ∈ packets.getLast?, p.Dissectable 0) (front : List UByte) :
    ∃ trees, parseFakeTls lib (front ++ records.flatten) front.length =
        .ok (trees.map TreeItem.record) ∧
      List.Forall₂ (fun sent tree => Shows sent.1 sent.2 tree) (records.zip packets) trees := by
  induction h generalizing front with
  | nil =>
    refine ⟨[], ?_, .nil⟩
    rw [parseFakeTls, if_pos (by simp)]
    rfl
  | @cons record p records packets hrecord hrecords ih =>
    have hsize : 26 ≤ record.length := hrecord.length_ge
    rw [List.flatten_cons]
    have hcount : (front ++ (record ++ records.flatten)).length =
        front.length + (record.length + records.flatten.length) := by
      rw [List.length_append, List.length_append]
    cases hrecords with
    | nil =>
      obtain ⟨tree, hparse, hshows⟩ := parseRecord_shows hlib hrecord front
        (show p.Dissectable ([] : List UByte).length from hlast p rfl)
      refine ⟨[tree], ?_, .cons hshows .nil⟩
      rw [List.flatten_nil] at hcount ⊢
      rw [List.length_nil] at hcount
      rw [parseFakeTls, if_neg (by omega), if_neg (by omega), hparse]
      dsimp only
      rw [if_neg (by omega)]
      rfl
    | @cons next q later packets hnext hlater =>
      have hbehind : 26 ≤ (next :: later).flatten.length := by
        have hnextSize := hnext.length_ge
        rw [List.flatten_cons, List.length_append]
        omega
      obtain ⟨hp, hall⟩ := List.forall_mem_cons.mp hall
      obtain ⟨tree, hparse, hshows⟩ := parseRecord_shows hlib hrecord front
        (hp.mono (show 1 ≤ (next :: later).flatten.length by omega))
      obtain ⟨trees, hrest, htrees⟩ := ih hall (by rwa [List.getLast?_cons_cons] at hlast)
        (front ++ record)
      have hnextOffset : (front ++ record).length = front.length + 5 + (record.length - 5) := by
        rw [List.length_append]
        omega
      rw [hnextOffset, List.append_assoc] at hrest
      refine ⟨tree :: trees, ?_, .cons hshows htrees⟩
      rw [parseFakeTls, if_neg (by omega), if_neg (by omega), hparse]
      dsimp only
      rw [if_pos (by omega), hrest]
      rfl

end Shown

/-- Of a segment of records of which each is decoded to an IPv4 packet, the dissector shows each
record and each packet as it was decoded, in order: the lengths, the addresses and ports, and over
TCP what the drivers' own getters read of the proto data, down to the options. The proto data of TCP
must have its fixed fields, and something must follow those of the last packet. -/
theorem dissector_shows_decoded {lib : Analyzer} (hlib : lib.Lawful) {m m' : QVPNPacketManager}
    (hm : m.Empty) (hcached : m.cached = none) {records : List (List UByte)}
    (hrecords : ∀ record ∈ records, TLS13Record.WellFormed record)
    (htype : ∀ record ∈ records, record.head? = some 23) {packets : List QTunnelData}
    (hdecode : decodeRecords defaultLayers m records = .ok (packets.map some, m'))
    (hnet : ∀ p ∈ packets, p.netProtocol = .IPv4) (hall : ∀ p ∈ packets, p.Dissectable 1)
    (hlast : ∀ p ∈ packets.getLast?, p.Dissectable 0) :
    ∃ trees, fakeTlsRec lib records.flatten = .ok (trees.map TreeItem.record) ∧
      List.Forall₂ (fun sent tree => Shows sent.1 sent.2 tree) (records.zip packets) trees := by
  have hholds := decodeRecords_whole hm hcached hrecords htype hdecode hnet
  exact parseFakeTls_shows hlib hholds hall hlast []

/-- Ranges and rests by the bounds of the buffer. -/
def boundedAnalyzer : Analyzer where
  range buffer offset length := slice buffer offset (offset + length)
  rest buffer offset := slice buffer offset buffer.length

theorem boundedAnalyzer_lawful : boundedAnalyzer.Lawful where
  range_eq := by
    intro buffer offset length h
    have hcut := slice_natCast_eq_ok_iff.mpr
      ⟨Nat.le_add_right offset length, h, rfl⟩
    rw [Nat.add_sub_cancel_left] at hcut
    exact hcut
  rest_eq := by
    intro buffer offset h
    have hcut := slice_natCast_eq_ok_iff.mpr ⟨h.le, Nat.le_refl buffer.length, rfl⟩
    rw [List.take_of_length_le (by rw [List.length_drop])] at hcut
    exact hcut

/-- The end of a connection. -/
def fin : QTunnelData where
  netProtocol := .IPv4
  transportProtocol := .TCP
  sourceAddr := ⟨[10, 0, 0, 2]⟩
  sourcePort := 4000
  dstAddr := ⟨[93, 184, 216, 34]⟩
  dstPort := 80
  protoData := ⟨[0, 15, 0, 0, 0, 9, 0, 0, 0, 7, 0, 17, 5, 4, 0, 0, 0]⟩
  data := []

def finRecord : List UByte := wholeRecord 0 fin.toQTunnelProxy fin.data

/-- The end of a connection and a query in one segment. -/
theorem dissector_shows_decoded_fin : ∃ trees,
    fakeTlsRec boundedAnalyzer [finRecord, queryRecord 1].flatten =
        .ok (trees.map TreeItem.record) ∧
      List.Forall₂ (fun sent tree => Shows sent.1 sent.2 tree)
        [(finRecord, fin), (queryRecord 1, query)] trees := by
  have hdecode : ∃ m',
      decodeRecords defaultLayers (initial .increasing) [finRecord, queryRecord 1] =
      .ok ([fin, query].map some, m') := ⟨_, rfl⟩
  obtain ⟨m', hdecode⟩ := hdecode
  have hframed : ∀ record ∈ [finRecord, queryRecord 1], TLS13Record.WellFormed record := by
    intro record hrecord
    obtain ⟨body, hbody, rfl⟩ : ∃ body : List UByte, body.length ≤ 65530 ∧
        record = TLS13Record.generateObjectBytes body := by
      obtain rfl | hrecord := List.mem_cons.mp hrecord
      · exact ⟨_, by decide, rfl⟩
      · rw [List.mem_singleton.mp hrecord]
        exact ⟨_, by decide, rfl⟩
    exact ⟨[23, 3, 3], body, rfl, rfl, hbody⟩
  exact dissector_shows_decoded boundedAnalyzer_lawful (initial_empty _) rfl hframed (by decide)
    hdecode (by decide) (by decide) (by decide)

end QVPN
