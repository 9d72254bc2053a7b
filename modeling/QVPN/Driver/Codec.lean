import QVPN.Driver.Layers
import QVPN.Driver.Split
import QVPN.Lib.Spans
import QVPN.Structures.FullPacket

/-!
# Encoding and decoding of tunnelled packets

Both drivers encode a packet by splitting its payload and framing every part, with the proxy
data in the first part only, and decode a record by unwrapping it and handing it to the
packet manager. A packet that becomes complete is popped and parsed.
-/

namespace QVPN

open BigEndian Memory QVPNLayersSettings QVPNPacketManager

/-- Encode the parts of a packet after the first. -/
def encodeLaterParts (layers : QVPNLayersSettings) (view : SplittedPacketView)
    (payload : List UByte) : Except Fault (List (List UByte)) :=
  ((List.range view.size).drop 1).mapM fun i => do
    let (pb, b, e) ← view.getRawWithPbData i
    let part ← slice payload b e
    return layers.layersEncodePb pb part

/-- The records of a packet, held in one buffer. -/
def encodeData (layers : QVPNLayersSettings) (m : QVPNPacketManager) (proxy : QTunnelProxy)
    (payload : List UByte) : Except Fault (SplittedPacket × QVPNPacketManager) := do
  let (view, m) ← m.splitPacketView payload
  let (pb, b, e) ← view.getRawWithPbData 0
  let part ← slice payload b e
  let first ← layers.layersEncodePbProxy pb proxy part
  let rest ← encodeLaterParts layers view payload
  return (rest.foldl SplittedPacket.addData (SplittedPacket.empty.addData first), m)

/-- Decode a record; the result is a packet if one became complete. -/
def decodeData (layers : QVPNLayersSettings) (m : QVPNPacketManager) (record : List UByte) :
    Except Fault (Option QTunnelData × QVPNPacketManager) := do
  let res ← layers.layersDecode record
  let (packet, m) ← (m.buildPacket res).2.popIfFull
  match packet with
  | some data => do
    let data ← QTunnelData.ofBytes data
    return (some data, m)
  | none => return (none, m)

/-- Decode records in order, with the result of each. -/
def decodeRecords (layers : QVPNLayersSettings) (m : QVPNPacketManager) :
    List (List UByte) → Except Fault (List (Option QTunnelData) × QVPNPacketManager)
  | [] => .ok ([], m)
  | record :: records => do
    let (packet, m) ← decodeData layers m record
    let (packets, m) ← decodeRecords layers m records
    return (packet :: packets, m)

/-- The records the sending loop addresses one after the other. -/
def SplittedPacket.records (s : SplittedPacket) : Except Fault (List (List UByte)) :=
  (List.range s.size).mapM s.getRawPacket

/-- The manager configuration that no driver ever changes. -/
structure QVPNPacketManager.DefaultConfig (m : QVPNPacketManager) : Prop where
  max_size : m.dataMaxSize = 65229
  split_size : m.dataSplitSize = 32615

theorem initial_defaultConfig (order : IterationOrder) : (initial order).DefaultConfig :=
  ⟨rfl, rfl⟩

/-- A packet whose addresses fit its protocol and whose proto data fits its prefix. -/
structure QTunnelProxy.Valid (p : QTunnelProxy) : Prop where
  addrs : p.AddrsMatch
  proto : p.protoData.WellFormed
  proto_le : p.protoData.data.length ≤ 57

namespace QTunnelProxy

/-- The proxy part of an encoded packet is small. -/
theorem Valid.encode_nil_length_le {p : QTunnelProxy} (h : p.Valid) : (p.encode []).length ≤ 95 := by
  have hle := h.proto_le
  rcases h.addrs with ⟨-, hsrc, hdst⟩ | ⟨-, hsrc, hdst⟩ <;>
  · simp [encode, headerBytes, hsrc, hdst]
    omega

theorem encode_length (p : QTunnelProxy) (payload : List UByte) :
    (p.encode payload).length = (p.encode []).length + payload.length := by
  simp only [encode, List.append_nil, List.length_append]

/-- The announced proxy size is the number of bytes in front of the payload. -/
theorem getProxyDataSize_eq {p : QTunnelProxy} (h : p.protoData.WellFormed) :
    p.getProxyDataSize = .ok (UInt16.ofNat (p.encode []).length) := by
  obtain ⟨length, bytes, hp, hlength⟩ := h
  rw [getProxyDataSize, hp, QTunnelProtoData.getLength_ofLength, ok_bind]
  have hcount : 1 + 1 + p.sourceAddr.getAddrSize + 2 + p.dstAddr.getAddrSize + 2 +
      length.toNat + 2 = (p.encode []).length := by
    simp only [encode, headerBytes, hp, QTunnelProtoData.ofLength, NetAddr.getAddrSize, hlength,
      List.length_append, List.length_cons, List.length_nil, bytes16_length]
    omega
  rw [hcount]
  rfl

/-- An encoded packet is never empty. -/
theorem encode_ne_nil (p : QTunnelProxy) (payload : List UByte) : p.encode payload ≠ [] := by
  simp [encode, headerBytes]

end QTunnelProxy

/-- The record of a packet that is not split. -/
def wholeRecord (id : UByte) (proxy : QTunnelProxy) (payload : List UByte) : List UByte :=
  TLS13Record.generateObjectBytes
    (PacketBuilderData.bytes ⟨id, 0, UInt16.ofNat (proxy.encode payload).length⟩ ++
      proxy.encode payload)

/-- Announced sizes add up as numbers do. -/
theorem announcedSize_eq {proxy : QTunnelProxy} (hproto : proxy.protoData.WellFormed)
    (pb : PacketBuilderData) (part : List UByte) :
    TLS13ApplicationData.generateObjectBytesPbProxy pb proxy part =
      .ok (PacketBuilderData.bytes ⟨pb.packetId, pb.offset,
        pb.originalSize + UInt16.ofNat (proxy.encode []).length⟩ ++ proxy.encode part) := by
  rw [TLS13ApplicationData.generateObjectBytesPbProxy, QTunnelProxy.getProxyDataSize_eq hproto]
  rfl

/-- A payload below the maximum is one part. -/
theorem splitPacketView_unsplit {m : QVPNPacketManager} {payload : List UByte}
    (hsize : payload.length < m.dataMaxSize.toNat) :
    m.splitPacketView payload = .ok (⟨m.lastPacketId, some 0, UInt16.ofNat payload.length,
      [(0, (payload.length : ℤ))]⟩, m.nextPacketId) := by
  have hranges : m.ranges payload.length = .ok [(0, (payload.length : ℤ))] := by
    rw [ranges, if_neg (by omega)]
  have hword : UInt16.ofInt (payload.length : ℤ) = UInt16.ofNat payload.length :=
    ofInt_eq_ofNat rfl
  rw [splitPacketView, hranges, ok_bind]
  simp only [List.foldl_cons, List.foldl_nil, SplittedPacketView.addData, Int.sub_zero, hword]
  simp
  rfl

/-- Without a split, encoding yields the one record of the whole packet. -/
theorem encodeData_unsplit {m : QVPNPacketManager} {proxy : QTunnelProxy} {payload : List UByte}
    (hproto : proxy.protoData.WellFormed) (hsize : payload.length < m.dataMaxSize.toNat) :
    encodeData defaultLayers m proxy payload =
      .ok (SplittedPacket.empty.addData (wholeRecord m.lastPacketId proxy payload),
        m.nextPacketId) := by
  have hwhole : slice payload 0 (0 + (payload.length : ℤ)) = .ok payload :=
    slice_all _ _ (by omega)
  have hrest : encodeLaterParts defaultLayers ⟨m.lastPacketId, some 0,
      UInt16.ofNat payload.length, [(0, (payload.length : ℤ))]⟩ payload = .ok [] := rfl
  have hannounced : UInt16.ofNat payload.length + UInt16.ofNat (proxy.encode []).length =
      UInt16.ofNat (proxy.encode payload).length := by
    rw [← UInt16.ofNat_add, Nat.add_comm, ← proxy.encode_length payload]
  rw [encodeData, splitPacketView_unsplit hsize, ok_bind]
  dsimp only
  rw [show SplittedPacketView.getRawWithPbData ⟨m.lastPacketId, some 0,
      UInt16.ofNat payload.length, [(0, (payload.length : ℤ))]⟩ 0 = .ok (⟨m.lastPacketId, 0,
        UInt16.ofNat payload.length⟩, 0 + ((0 : ℕ) : ℤ), 0 + (payload.length : ℤ)) from rfl, ok_bind]
  dsimp only
  rw [show (0 : ℤ) + ((0 : ℕ) : ℤ) = 0 from rfl, hwhole, ok_bind, layersEncodePbProxy_default,
    QLayer.layerEncodePbProxy, announcedSize_eq hproto, hannounced, ok_bind, pure_bind, hrest]
  rfl

/-- Parts held by value lie one behind the other, each at its separators. -/
theorem foldl_addData (s : SplittedPacket) (parts : List (List UByte)) :
    parts.foldl SplittedPacket.addData s = ⟨s.packetId, s.data ++ parts.flatten,
      s.separators ++ (Fragments.spans s.data.length parts).map
        fun r => (UInt16.ofNat r.1, UInt16.ofNat r.2)⟩ := by
  induction parts generalizing s with
  | nil => simp [Fragments.spans]
  | cons part parts ih =>
    rw [List.foldl_cons, ih]
    simp only [SplittedPacket.addData, Fragments.spans, List.flatten_cons, List.map_cons,
      List.length_append, List.append_assoc, List.singleton_append]

/-- Parts that a 16-bit separator can address are addressed exactly. -/
theorem records_foldl (id : UByte) {parts : List (List UByte)}
    (h : parts.flatten.length ≤ 65535) :
    (parts.foldl SplittedPacket.addData ⟨id, [], []⟩).records = .ok parts := by
  have hwords : ∀ r ∈ Fragments.spans 0 parts,
      slice parts.flatten (UInt16.ofNat r.1).toNat (UInt16.ofNat r.2).toNat =
        slice parts.flatten r.1 r.2 := by
    intro r hr
    have hle := Fragments.spans_le hr
    rw [UInt16.toNat_ofNat', UInt16.toNat_ofNat', Nat.mod_eq_of_lt (by omega),
      Nat.mod_eq_of_lt (by omega)]
  have hread := mapM_range_readAt
    ((Fragments.spans 0 parts).map fun r => (UInt16.ofNat r.1, UInt16.ofNat r.2))
    (fun r => slice parts.flatten r.1.toNat r.2.toNat)
  rw [List.mapM_map] at hread
  rw [foldl_addData]
  exact hread.trans ((mapM_congr hwords).trans (Fragments.mapM_slice_spans [] parts))

/-- Decoding a record hands its body to the packet manager. -/
theorem decodeData_record {m : QVPNPacketManager} {body : List UByte} (h : body.length ≤ 65530) :
    decodeData defaultLayers m (TLS13Record.generateObjectBytes body) = (do
      let (packet, m) ← (m.buildPacket body).2.popIfFull
      match packet with
      | some data => do
        let data ← QTunnelData.ofBytes data
        return (some data, m)
      | none => return (none, m)) := by
  rw [decodeData, layersDecode_default, QLayer.layerDecode_record h, ok_bind]

/-- A whole packet in one record is decoded at once, and leaves no builder behind. -/
theorem decodeData_wholeRecord {m : QVPNPacketManager} {id : UByte} {proxy : QTunnelProxy}
    {payload : List UByte} (hvalid : proxy.Valid) (hsize : payload.length < 65229)
    (hsettled : m.Settled) (hid : m.packets id = none) :
    decodeData defaultLayers m (wholeRecord id proxy payload) = .ok (some ⟨proxy, payload⟩, m) := by
  have hproxy := hvalid.encode_nil_length_le
  have hlen := proxy.encode_length payload
  have hne := proxy.encode_ne_nil payload
  have hpos := List.length_pos_iff.mpr hne
  have hword : (UInt16.ofNat (proxy.encode payload).length).toNat =
      (proxy.encode payload).length := by
    simp
    omega
  have hadm : Admitted 0 (UInt16.ofNat (proxy.encode payload).length) (proxy.encode payload) :=
    ⟨hne, by rw [hword]; simp⟩
  have hbuilder : PacketBuilder.ofFragment 0 (UInt16.ofNat (proxy.encode payload).length)
      (proxy.encode payload) =
      ⟨UInt16.ofNat (proxy.encode payload).length, proxy.encode payload, true⟩ := by
    simp [PacketBuilder.ofFragment, PacketBuilder.addData, hword]
  rw [wholeRecord, decodeData_record (by simp; omega), buildPacket_new hadm hid, hbuilder,
    popIfFull_of_full (Function.update_self id _ m.packets) rfl
      (fun other hother => by rw [fullAt_update, if_neg hother, hsettled.none_full]), ok_bind]
  simp only [QTunnelData.ofBytes_encode hvalid.addrs hvalid.proto, ok_bind, Function.update_idem]
  rw [← hid, Function.update_eq_self, ← hsettled.not_cached]
  rfl

/-- The payload sizes that the split of the default configuration covers without a gap. -/
def Lossless (payload : List UByte) : Prop := payload.length < 65229 ∨ payload.length = 65230

/-- A packet as it is captured, whose split, if any, loses nothing. -/
structure QTunnelData.Sendable (packet : QTunnelData) : Prop where
  addrs : packet.AddrsMatch
  proto : packet.protoData.Collected
  size : Lossless packet.data

/-- Captured packets have valid proxy data. -/
theorem QTunnelData.Sendable.valid {packet : QTunnelData} (h : packet.Sendable) :
    packet.toQTunnelProxy.Valid :=
  ⟨h.addrs, h.proto.wellFormed.1, h.proto.wellFormed.2⟩

/-- The two records of a packet that is split in the middle. The first announces the size of
the proxy data too, the second the payload alone. -/
def firstRecord (id : UByte) (proxy : QTunnelProxy) (payload : List UByte) : List UByte :=
  TLS13Record.generateObjectBytes
    (PacketBuilderData.bytes ⟨id, 0, 65230 + UInt16.ofNat (proxy.encode []).length⟩ ++
      proxy.encode (payload.take 32615))

def secondRecord (id : UByte) (payload : List UByte) : List UByte :=
  TLS13Record.generateObjectBytes
    (PacketBuilderData.bytes ⟨id, 32615, 65230⟩ ++ payload.drop 32615)

theorem wholeRecord_ne_nil (id : UByte) (proxy : QTunnelProxy) (payload : List UByte) :
    wholeRecord id proxy payload ≠ [] := List.cons_ne_nil _ _

theorem firstRecord_ne_nil (id : UByte) (proxy : QTunnelProxy) (payload : List UByte) :
    firstRecord id proxy payload ≠ [] := List.cons_ne_nil _ _

theorem secondRecord_ne_nil (id : UByte) (payload : List UByte) : secondRecord id payload ≠ [] :=
  List.cons_ne_nil _ _

/-- The records of a packet, in the order in which they are sent. -/
def packetRecords (id : UByte) (proxy : QTunnelProxy) (payload : List UByte) :
    List (List UByte) :=
  if payload.length < 65229 then [wholeRecord id proxy payload]
  else [firstRecord id proxy payload, secondRecord id payload]

/-- The records of packets under their ids. -/
def recordsOf (packets : List (UByte × QTunnelData)) : List (List UByte) :=
  packets.flatMap fun e => packetRecords e.1 e.2.toQTunnelProxy e.2.data

/-- The records of several packets begin with those of the first. -/
theorem recordsOf_cons (e : UByte × QTunnelData) (later : List (UByte × QTunnelData)) :
    recordsOf (e :: later) = packetRecords e.1 e.2.toQTunnelProxy e.2.data ++ recordsOf later := by
  rw [recordsOf, List.flatMap_cons, recordsOf]

/-- A payload of at least twice and less than three times the split size is cut in the middle. -/
theorem splitPacketView_split {m : QVPNPacketManager} (hm : m.DefaultConfig)
    {payload : List UByte} (hsize : 65230 ≤ payload.length) (hlt : payload.length < 97845) :
    m.splitPacketView payload = .ok (⟨m.lastPacketId, some 0, 65230,
      [(0, 32615), (32615, 65230)]⟩, m.nextPacketId) := by
  have hmax : (65229 : UInt32).toNat = 65229 := by decide
  have hsplit : (32615 : UShort).toNat = 32615 := by decide
  have hcount : UInt8.ofNat (payload.length / 32615) = 2 := by
    rw [show payload.length / 32615 = 2 by omega]
    rfl
  have hranges : m.ranges payload.length = .ok [(0, 32615), (32615, 65230)] := by
    rw [ranges, hm.max_size, hm.split_size, hmax, hsplit, if_pos (by omega), if_neg (by decide),
      hcount]
    change Except.ok (splitRanges _ _ 2 _ _ _) = _
    simp only [splitRanges]
    rw [if_neg (by omega), if_neg (by omega)]
    rfl
  have hfirst : (0 : UShort) + UInt16.ofInt 32615 = 32615 := by decide
  have hsecond : (32615 : UShort) + UInt16.ofInt (65230 - 32615) = 65230 := by decide
  rw [splitPacketView, hranges, ok_bind]
  simp only [List.foldl_cons, List.foldl_nil, SplittedPacketView.addData, Int.sub_zero, hfirst,
    hsecond, hsplit]
  rfl

/-- With a split in the middle, encoding yields the two records. -/
theorem encodeData_split {m : QVPNPacketManager} (hm : m.DefaultConfig) {proxy : QTunnelProxy}
    {payload : List UByte} (hproto : proxy.protoData.WellFormed) (hsize : payload.length = 65230) :
    encodeData defaultLayers m proxy payload =
      .ok ((SplittedPacket.empty.addData (firstRecord m.lastPacketId proxy payload)).addData
        (secondRecord m.lastPacketId payload), m.nextPacketId) := by
  have hfront : slice payload 0 32615 = .ok (payload.take 32615) := by
    conv_lhs => rw [← List.take_append_drop 32615 payload]
    exact slice_prefix _ _ _ (by simp [hsize])
  have hback : slice payload 32615 65230 = .ok (payload.drop 32615) := by
    conv_lhs => rw [← List.take_append_drop 32615 payload]
    exact slice_suffix _ _ _ _ (by simp [hsize]) (by simp [hsize])
  have hrest : encodeLaterParts defaultLayers ⟨m.lastPacketId, some 0, 65230,
      [(0, 32615), (32615, 65230)]⟩ payload = .ok [secondRecord m.lastPacketId payload] := by
    rw [encodeLaterParts, show (List.range (SplittedPacketView.size ⟨m.lastPacketId, some 0, 65230,
      [(0, 32615), (32615, 65230)]⟩)).drop 1 = [1] from rfl, List.mapM_cons, List.mapM_nil]
    simp only [SplittedPacketView.getRawWithPbData, readAt_cons_succ, readAt_cons_zero, ok_bind]
    rw [pure_bind]
    change ((slice payload 32615 65230 >>= _) >>= _) = _
    rw [hback]
    rfl
  rw [encodeData, splitPacketView_split hm (by omega) (by omega), ok_bind]
  dsimp only
  rw [show SplittedPacketView.getRawWithPbData ⟨m.lastPacketId, some 0, 65230,
      [(0, 32615), (32615, 65230)]⟩ 0 = .ok (⟨m.lastPacketId, 0, 65230⟩, 0, 32615) from rfl, ok_bind]
  dsimp only
  rw [hfront, ok_bind, layersEncodePbProxy_default, QLayer.layerEncodePbProxy,
    announcedSize_eq hproto, ok_bind, pure_bind, hrest]
  rfl

/-- The records of an encoded packet are the records of the packet. -/
theorem encodeData_records {m : QVPNPacketManager} (hm : m.DefaultConfig) {proxy : QTunnelProxy}
    {payload : List UByte} (hvalid : proxy.Valid) (hsize : Lossless payload) :
    ∃ s, encodeData defaultLayers m proxy payload = .ok (s, m.nextPacketId) ∧
      s.records = .ok (packetRecords m.lastPacketId proxy payload) := by
  have hproxy := hvalid.encode_nil_length_le
  rcases hsize with hsmall | hsplit
  · refine ⟨_, encodeData_unsplit hvalid.proto (by rw [hm.max_size]; exact hsmall), ?_⟩
    rw [packetRecords, if_pos hsmall]
    have hlen := proxy.encode_length payload
    have hfits : [wholeRecord m.lastPacketId proxy payload].flatten.length ≤ 65535 := by
      simp only [List.flatten_singleton, wholeRecord, TLS13Record.generateObjectBytes_length,
        List.length_append, PacketBuilderData.bytes_length]
      omega
    exact records_foldl 0 hfits
  · refine ⟨_, encodeData_split hm hvalid.proto hsplit, ?_⟩
    rw [packetRecords, if_neg (by omega)]
    have hlen := proxy.encode_length (payload.take 32615)
    have htake : (payload.take 32615).length = 32615 := by simp [hsplit]
    have hfits : [firstRecord m.lastPacketId proxy payload,
        secondRecord m.lastPacketId payload].flatten.length ≤ 65535 := by
      simp only [List.flatten_cons, List.flatten_nil, List.append_nil, firstRecord, secondRecord,
        TLS13Record.generateObjectBytes_length, List.length_append, PacketBuilderData.bytes_length,
        List.length_drop]
      omega
    exact records_foldl 0 hfits

/-- A payload of the maximal size is taken for one part, of which only the split size is kept. -/
theorem splitPacketView_max {m : QVPNPacketManager} (hm : m.DefaultConfig)
    {payload : List UByte} (hsize : payload.length = 65229) :
    m.splitPacketView payload = .ok (⟨m.lastPacketId, some 0, 32615, [(0, 32615)]⟩,
      m.nextPacketId) := by
  have hranges : m.ranges payload.length = .ok [(0, 32615)] := by
    have hcount : UInt8.ofNat (65229 / (32615 : UShort).toNat) = 1 := by decide
    rw [ranges, hsize, hm.max_size, hm.split_size, if_pos (by decide), if_neg (by decide), hcount]
    rfl
  have hfirst : (0 : UShort) + UInt16.ofInt 32615 = 32615 := by decide
  rw [splitPacketView, hranges, ok_bind]
  simp only [List.foldl_cons, List.foldl_nil, SplittedPacketView.addData, Int.sub_zero, hfirst]
  rfl

/-- What the split of the default configuration keeps of a payload that it does not leave whole: as
many full parts as fit. -/
def kept (payload : List UByte) : List UByte :=
  if payload.length < 65229 then payload else payload.take (32615 * (payload.length / 32615))

theorem kept_length_le (payload : List UByte) : (kept payload).length ≤ payload.length := by
  rw [kept]
  split
  · exact le_rfl
  · exact (List.take_prefix _ _).length_le

/-- A payload that keeps its size is kept whole. -/
theorem kept_eq_of_length {payload : List UByte} (h : payload.length ≤ (kept payload).length) :
    kept payload = payload := by
  rw [kept] at h ⊢
  split
  · rfl
  · next hlarge =>
    rw [if_neg hlarge] at h
    exact (List.take_prefix _ _).eq_of_length_le h

/-- What is kept of a payload that is not split in two is one part. -/
theorem kept_length_lt {payload : List UByte} (h : payload.length ≤ 65229) :
    (kept payload).length < 65229 := by
  rw [kept]
  split
  · next hsmall => exact hsmall
  · next hlarge =>
    rw [List.length_take]
    omega

/-- Nothing is lost exactly of the payloads that are covered without a gap. -/
theorem kept_eq_iff {payload : List UByte} (hsize : payload.length ≤ 65535) :
    kept payload = payload ↔ Lossless payload := by
  rw [kept, Lossless]
  split
  · next hsmall => exact iff_of_true rfl (Or.inl hsmall)
  · next hlarge =>
    rw [List.take_eq_self_iff]
    omega

/-- What is kept is covered without a gap. -/
theorem lossless_kept {payload : List UByte} (hsize : payload.length ≤ 65535) :
    Lossless (kept payload) := by
  rw [kept, Lossless]
  split
  · next hsmall => exact Or.inl hsmall
  · next hlarge =>
    rw [List.length_take]
    omega

/-- Encoding looks at a payload through the ranges of its parts only. -/
theorem encodeData_congr {layers : QVPNLayersSettings} {m m' : QVPNPacketManager}
    {proxy : QTunnelProxy} {payload payload' : List UByte} {view : SplittedPacketView}
    (hview : m.splitPacketView payload = .ok (view, m'))
    (hview' : m.splitPacketView payload' = .ok (view, m'))
    (hparts : ∀ i pb b e, view.getRawWithPbData i = .ok (pb, b, e) →
      slice payload b e = slice payload' b e) :
    encodeData layers m proxy payload = encodeData layers m proxy payload' := by
  have hlater : encodeLaterParts layers view payload = encodeLaterParts layers view payload' := by
    refine mapM_congr fun i _ => ?_
    cases hpart : view.getRawWithPbData i with
    | error fault => rfl
    | ok part =>
      obtain ⟨pb, b, e⟩ := part
      rw [ok_bind, ok_bind]
      dsimp only
      rw [hparts i pb b e hpart]
  rw [encodeData, encodeData, hview, hview', ok_bind, ok_bind]
  dsimp only
  cases hpart : view.getRawWithPbData 0 with
  | error fault => rfl
  | ok part =>
    obtain ⟨pb, b, e⟩ := part
    rw [ok_bind, ok_bind]
    dsimp only
    rw [hparts 0 pb b e hpart, hlater]

/-- The parts of a view that starts with the payload end where its separators say. -/
theorem getRawWithPbData_le {id : UByte} {size : UShort} {separators : List (ℕ × ℤ)} {n : ℤ}
    (hends : ∀ r ∈ separators, r.2 ≤ n) {i : ℕ} {pb : PacketBuilderData} {b e : ℤ}
    (h : SplittedPacketView.getRawWithPbData ⟨id, some 0, size, separators⟩ i = .ok (pb, b, e)) :
    e ≤ n := by
  obtain ⟨r, hr, h⟩ := bind_eq_ok_iff.mp h
  cases Except.ok.inj h
  have hmem := List.mem_of_getElem? (readAt_eq_ok_iff.mp hr)
  have hend := hends r hmem
  omega

/-- The records of a payload are those of what is kept of it. -/
theorem encodeData_kept (layers : QVPNLayersSettings) {m : QVPNPacketManager} (hm : m.DefaultConfig)
    (proxy : QTunnelProxy) {payload : List UByte} (hsize : payload.length ≤ 65535) :
    encodeData layers m proxy payload = encodeData layers m proxy (kept payload) := by
  rw [kept]
  split
  · rfl
  · next hlarge =>
    by_cases hone : payload.length = 65229
    · have hlength : (payload.take 32615).length = 32615 := List.length_take_of_le (by omega)
      have hkept : m.splitPacketView (payload.take 32615) = _ :=
        splitPacketView_unsplit (by rw [hlength, hm.max_size]; decide)
      rw [hlength] at hkept
      rw [show 32615 * (payload.length / 32615) = 32615 by omega]
      refine encodeData_congr (splitPacketView_max hm hone) hkept fun i pb b e hpart => ?_
      rw [slice_take_of_le payload (by omega) (getRawWithPbData_le (by simp) hpart)]
    · have hlength : (payload.take 65230).length = 65230 := List.length_take_of_le (by omega)
      rw [show 32615 * (payload.length / 32615) = 65230 by omega]
      refine encodeData_congr (splitPacketView_split hm (by omega) (by omega))
        (splitPacketView_split hm (by omega) (by omega)) fun i pb b e hpart => ?_
      rw [slice_take_of_le payload (by omega) (getRawWithPbData_le (by simp) hpart)]

/-- The builder that the first of two records starts. -/
def firstBuilder (proxy : QTunnelProxy) (payload : List UByte) : PacketBuilder :=
  ⟨65230 + UInt16.ofNat (proxy.encode []).length, proxy.encode (payload.take 32615), false⟩

/-- The size that the first of two records announces. -/
theorem firstSize_toNat {proxy : QTunnelProxy} (hvalid : proxy.Valid) :
    (65230 + UInt16.ofNat (proxy.encode []).length).toNat = 65230 + (proxy.encode []).length := by
  have hproxy := hvalid.encode_nil_length_le
  simp
  omega

/-- The first of two records starts a builder that is not full. -/
theorem decodeData_firstRecord {m : QVPNPacketManager} {id : UByte} {proxy : QTunnelProxy}
    {payload : List UByte} (hvalid : proxy.Valid) (hsize : payload.length = 65230)
    (hsettled : m.Settled) (hid : m.packets id = none) :
    decodeData defaultLayers m (firstRecord id proxy payload) =
      .ok (none, { m with
        packets := Function.update m.packets id (some (firstBuilder proxy payload)) }) := by
  have hproxy := hvalid.encode_nil_length_le
  have hlen := proxy.encode_length (payload.take 32615)
  have htake : (payload.take 32615).length = 32615 := by simp [hsize]
  have hword := firstSize_toNat hvalid
  have hadm : Admitted 0 (65230 + UInt16.ofNat (proxy.encode []).length)
      (proxy.encode (payload.take 32615)) := by
    refine ⟨proxy.encode_ne_nil _, ?_⟩
    rw [hword, UInt16.toNat_zero]
    omega
  have hbuilder : PacketBuilder.ofFragment 0 (65230 + UInt16.ofNat (proxy.encode []).length)
      (proxy.encode (payload.take 32615)) = firstBuilder proxy payload := by
    simp only [PacketBuilder.ofFragment, PacketBuilder.addData, PacketBuilder.find_nil,
      List.take_nil, List.nil_append, List.drop_nil, List.append_nil, hword, firstBuilder,
      Bool.false_or, PacketBuilder.mk.injEq, true_and, beq_eq_false_iff_ne, ne_eq]
    omega
  have hnone (other : UByte) : fullAt { m with
      packets := Function.update m.packets id (some (firstBuilder proxy payload)) } other = false := by
    rw [fullAt_update]
    split
    · rfl
    · exact hsettled.none_full other
  rw [firstRecord, decodeData_record (by simp; omega), buildPacket_new hadm hid, hbuilder,
    popIfFull_of_none hnone]
  rfl

/-- The second of two records completes the builder of the first. -/
theorem decodeData_secondRecord {m : QVPNPacketManager} {id : UByte} {proxy : QTunnelProxy}
    {payload : List UByte} (hvalid : proxy.Valid) (hsize : payload.length = 65230)
    (hsettled : m.Settled) (hid : m.packets id = some (firstBuilder proxy payload)) :
    decodeData defaultLayers m (secondRecord id payload) =
      .ok (some ⟨proxy, payload⟩, { m with packets := Function.update m.packets id none }) := by
  have hlen := proxy.encode_length (payload.take 32615)
  have htake : (payload.take 32615).length = 32615 := by simp [hsize]
  have hdrop : (payload.drop 32615).length = 32615 := by simp [hsize]
  have hword := firstSize_toNat hvalid
  have hoffset : (32615 : UShort).toNat = 32615 := rfl
  have hadm : Admitted 32615 65230 (payload.drop 32615) := by
    refine ⟨List.length_pos_iff.mp (by omega), ?_⟩
    rw [hdrop, hoffset]
    decide
  have hwhole : proxy.encode (payload.take 32615) ++ payload.drop 32615 = proxy.encode payload := by
    simp only [QTunnelProxy.encode, List.append_assoc, List.take_append_drop]
  have hadd : (firstBuilder proxy payload).addData 32615 (payload.drop 32615) =
      ⟨65230 + UInt16.ofNat (proxy.encode []).length, proxy.encode payload, true⟩ := by
    have hfull := proxy.encode_length payload
    rw [PacketBuilder.addData, PacketBuilder.find_of_ge (by rw [hoffset]; omega)]
    simp only [firstBuilder, List.take_length, List.drop_length, List.append_nil, hwhole, hword,
      Bool.false_or, PacketBuilder.mk.injEq, true_and, beq_iff_eq]
    omega
  rw [secondRecord, decodeData_record (by simp [hdrop]), buildPacket_add hadm hid, hadd,
    popIfFull_of_full (Function.update_self id _ m.packets) rfl
      (fun other hother => by rw [fullAt_update, if_neg hother, hsettled.none_full]), ok_bind]
  simp only [QTunnelData.ofBytes_encode hvalid.addrs hvalid.proto, ok_bind, Function.update_idem]
  rw [← hsettled.not_cached]
  rfl

end QVPN
