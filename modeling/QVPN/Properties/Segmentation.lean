import Mathlib.Algebra.BigOperators.Group.Finset.Basic
import Mathlib.Algebra.Order.BigOperators.Group.List
import Mathlib.Algebra.Order.Ring.Nat
import QVPN.Driver.Capture
import QVPN.Properties.RoundTrip

/-!
# Segmentation of the inbound stream

The server sends records over a stream, and the network cuts the stream into segments. The
client decodes every segment as one record: it takes the record header off and hands the rest,
whatever it is, to the packet manager.

If the segments are the records, the client returns what the split has kept of the packets that were
encoded, and this is the packets themselves unless the size of a payload makes the split lose a part.
If no packet is split in two, the client returns the packets only then. Every decoded segment loses
ten header bytes, so as many packets can only come out of as many segments as there are records,
each of them a whole one.
-/

namespace QVPN

open BigEndian Memory QVPNLayersSettings QVPNPacketManager

namespace QVPNPacketManager

/-- The bytes held in a builder. -/
def builderSize (pb : Option PacketBuilder) : ℕ := pb.elim 0 fun pb => pb.data.length

/-- The bytes held in all builders. -/
def held (m : QVPNPacketManager) : ℕ :=
  ∑ n ∈ Finset.range 256, builderSize (m.packets (UInt8.ofNat n))

/-- Nothing is held without builders. -/
theorem Empty.held_eq {m : QVPNPacketManager} (h : m.Empty) : m.held = 0 := by
  refine Finset.sum_eq_zero fun n _ => ?_
  rw [h]
  rfl

/-- Changing one builder changes the bytes held by its size. -/
theorem held_update (m : QVPNPacketManager) (id : UByte) (pb : Option PacketBuilder)
    (cached : Option UByte) :
    held { m with packets := Function.update m.packets id pb, cached := cached } +
      builderSize (m.packets id) = m.held + builderSize pb := by
  have hmem : id.toNat ∈ Finset.range 256 := Finset.mem_range.mpr id.toNat_lt
  have hid : UInt8.ofNat id.toNat = id := UInt8.ofNat_toNat
  have hrest : ∑ n ∈ (Finset.range 256).erase id.toNat,
      builderSize (Function.update m.packets id pb (UInt8.ofNat n)) =
      ∑ n ∈ (Finset.range 256).erase id.toNat, builderSize (m.packets (UInt8.ofNat n)) := by
    refine Finset.sum_congr rfl fun n hn => ?_
    obtain ⟨hne, hlt⟩ := Finset.mem_erase.mp hn
    rw [Finset.mem_range] at hlt
    have hother : UInt8.ofNat n ≠ id := by
      intro heq
      rw [← heq, UInt8.toNat_ofNat', Nat.mod_eq_of_lt (by omega)] at hne
      exact hne rfl
    rw [Function.update_of_ne hother]
  rw [held, held, ← Finset.add_sum_erase _ _ hmem, ← Finset.add_sum_erase _ _ hmem]
  dsimp only
  rw [hrest, hid, Function.update_self]
  omega

/-- A settled manager stays settled when a builder that is not full is put in or taken out. -/
theorem fullAt_of_settled_update {m : QVPNPacketManager} (h : m.Settled) (id : UByte)
    (pb : Option PacketBuilder) (hpb : pb.any (·.isFull) = false) :
    Settled { m with packets := Function.update m.packets id pb } where
  none_full := by
    intro other
    rw [fullAt_update]
    split
    · exact hpb
    · exact h.none_full other
  not_cached := h.not_cached

end QVPNPacketManager

/-- Unwrapping a record takes at least its header off. -/
theorem QLayer.layerDecode_length {record body : List UByte}
    (h : QLayer.layerDecode record = .ok body) : body.length + 5 ≤ record.length := by
  have hslice : slice record 5 (5 + ((UInt16.ofInt (((UInt16.ofNat record.length).toNat : ℤ) -
      5)).toNat : ℤ)) = .ok body := h
  obtain ⟨-, -, hstop, -⟩ := slice_eq_ok_iff.mp hslice
  have hlen := slice_length hslice
  omega

/-- A buffer whose size fits sixteen bits is unwrapped up to its end. -/
theorem QLayer.layerDecode_eq_drop {record body : List UByte} (hsize : record.length ≤ 65535)
    (h : QLayer.layerDecode record = .ok body) : body = record.drop 5 := by
  have hlen := QLayer.layerDecode_length h
  have hslice : slice record 5 (5 + ((UInt16.ofInt (((UInt16.ofNat record.length).toNat : ℤ) -
      5)).toNat : ℤ)) = .ok body := h
  have hview : (UInt16.ofNat record.length).toNat = record.length :=
    ofNat_toNat_of_le (by omega)
  have hdata : (UInt16.ofInt ((record.length : ℤ) - 5)).toNat = record.length - 5 := by
    rw [toNat_ofInt]
    omega
  rw [hview, hdata] at hslice
  obtain ⟨-, -, -, rfl⟩ := slice_eq_ok_iff.mp hslice
  exact List.take_of_length_le (by rw [List.length_drop]; simp)

/-- What decoding one segment does to the bytes held: a segment that returns nothing adds fewer
bytes than it has, and one that returns a packet loses its ten header bytes. -/
theorem decodeData_held {m m' : QVPNPacketManager} {segment : List UByte}
    {packet : Option QTunnelData} (hsettled : m.Settled) (hne : segment ≠ [])
    (h : decodeData defaultLayers m segment = .ok (packet, m')) :
    m'.Settled ∧ (packet = none ∧ m'.held + 1 ≤ m.held + segment.length ∨
      ∃ p data, packet = some p ∧ QTunnelData.ofBytes data = .ok p ∧
        data.length + m'.held + 10 ≤ m.held + segment.length) := by
  have hpos := List.length_pos_iff.mpr hne
  rw [decodeData, layersDecode_default] at h
  obtain ⟨message, hmessage, h⟩ := bind_eq_ok_iff.mp h
  have hheader := QLayer.layerDecode_length hmessage
  rcases m.buildPacket_cases message with hsame | ⟨id, offset, origSize, body, rfl, hadm⟩
  · rw [hsame, popIfFull_of_none hsettled.none_full] at h
    cases Except.ok.inj h
    exact ⟨hsettled, Or.inl ⟨rfl, by omega⟩⟩
  · obtain ⟨pb, hbuild, hdata⟩ := buildPacket_admitted m id hadm
    have hbody := List.length_pos_iff.mpr hadm.1
    have hheld := m.held_update id (some pb) m.cached
    rw [List.length_append, PacketBuilderData.bytes_length] at hheader
    change pb.data.length = builderSize (m.packets id) + body.length at hdata
    rw [show builderSize (some pb) = pb.data.length from rfl] at hheld
    rw [hbuild] at h
    by_cases hfull : pb.isFull = true
    · have hpop := popIfFull_of_full (Function.update_self id (some pb) m.packets) hfull
        (fun other hother => by rw [fullAt_update, if_neg hother, hsettled.none_full])
      rw [hpop, ok_bind] at h
      dsimp only at h
      obtain ⟨p, hp, h⟩ := bind_eq_ok_iff.mp h
      cases Except.ok.inj h
      rw [Function.update_idem, ← hsettled.not_cached]
      have hafter := m.held_update id none m.cached
      rw [show builderSize none = 0 from rfl] at hafter
      exact ⟨fullAt_of_settled_update hsettled id none rfl, Or.inr ⟨p, pb.data, rfl, hp, by omega⟩⟩
    · have hopen : (some pb).any (·.isFull) = false := by simpa using hfull
      have hafter := fullAt_of_settled_update hsettled id (some pb) hopen
      rw [popIfFull_of_none hafter.none_full] at h
      cases Except.ok.inj h
      exact ⟨hafter, Or.inl ⟨rfl, by omega⟩⟩

/-- Over a whole run, every returned packet costs ten bytes and every other segment at least
one. -/
theorem incomingCaptureLoop_held {m m' : QVPNPacketManager} {segments : List (List UByte)}
    {packets : List QTunnelData} (hsettled : m.Settled) (hne : ∀ s ∈ segments, s ≠ [])
    (haddrs : ∀ p ∈ packets, p.AddrsMatch)
    (h : incomingCaptureLoop m segments = .ok (packets, m')) :
    (packets.map fun p => (p.encode p.data).length).sum + m'.held + 9 * packets.length +
      segments.length ≤ m.held + segments.flatten.length := by
  induction segments generalizing m packets with
  | nil =>
    cases Except.ok.inj h
    simp
  | cons segment segments ih =>
    have hsegment := hne segment (by simp)
    rw [incomingCaptureLoop, if_neg (by simpa using hsegment)] at h
    obtain ⟨⟨packet, t⟩, hdecode, h⟩ := bind_eq_ok_iff.mp h
    obtain ⟨⟨later, t'⟩, hloop, h⟩ := bind_eq_ok_iff.mp h
    cases Except.ok.inj h
    obtain ⟨hsettled', hcost⟩ := decodeData_held hsettled hsegment hdecode
    have hrest := ih hsettled' (fun s hs => hne s (List.mem_cons_of_mem _ hs))
      (fun p hp => haddrs p (List.mem_append_right _ hp)) hloop
    rcases hcost with ⟨rfl, hcost⟩ | ⟨p, data, rfl, hdata, hcost⟩
    · simp only [Option.toList_none, List.nil_append, List.flatten_cons, List.length_append,
        List.length_cons]
      omega
    · have hlen := QTunnelData.ofBytes_length hdata (haddrs p (by simp))
      simp only [Option.toList_some, List.cons_append, List.nil_append, List.map_cons,
        List.sum_cons, List.length_cons, List.flatten_cons, List.length_append]
      omega

/-- The ten header bytes of a whole record. -/
def wholeHeader (id : UByte) (proxy : QTunnelProxy) (payload : List UByte) : List UByte :=
  [23, 0x03, 0x03] ++ bytes16 (UInt16.ofNat (PacketBuilderData.bytes
    ⟨id, 0, UInt16.ofNat (proxy.encode payload).length⟩ ++ proxy.encode payload).length) ++
    PacketBuilderData.bytes ⟨id, 0, UInt16.ofNat (proxy.encode payload).length⟩

theorem wholeHeader_length (id : UByte) (proxy : QTunnelProxy) (payload : List UByte) :
    (wholeHeader id proxy payload).length = 10 := rfl

theorem wholeRecord_eq (id : UByte) (proxy : QTunnelProxy) (payload : List UByte) :
    wholeRecord id proxy payload = wholeHeader id proxy payload ++ proxy.encode payload := by
  rw [wholeRecord, wholeHeader, TLS13Record.generateObjectBytes, List.append_assoc _ _
    (proxy.encode payload)]

/-- The size of a whole record. -/
theorem wholeRecord_length (id : UByte) (proxy : QTunnelProxy) (payload : List UByte) :
    (wholeRecord id proxy payload).length = 10 + (proxy.encode payload).length := by
  rw [wholeRecord_eq, List.length_append, wholeHeader_length]

/-- A segment of the stream that returns a packet at once is exactly the first record. -/
theorem segment_eq_wholeRecord {m m' : QVPNPacketManager} {id : UByte} {packet p : QTunnelData}
    {segment more rest : List UByte} (hm : m.Empty) (hcached : m.cached = none)
    (hvalid : packet.Valid) (hsmall : packet.data.length < 65229)
    (hsize : segment.length ≤ 65535)
    (hcut : segment ++ more = wholeRecord id packet.toQTunnelProxy packet.data ++ rest)
    (h : decodeData defaultLayers m segment = .ok (some p, m')) :
    segment = wholeRecord id packet.toQTunnelProxy packet.data := by
  have hsettled := hm.settled hcached
  have hproxy := hvalid.encode_nil_length_le
  have hencode := packet.encode_length packet.data
  have hlen := wholeRecord_length id packet.toQTunnelProxy packet.data
  rw [decodeData, layersDecode_default] at h
  obtain ⟨message, hmessage, hpop⟩ := bind_eq_ok_iff.mp h
  have hdrop := QLayer.layerDecode_eq_drop hsize hmessage
  have hheader := QLayer.layerDecode_length hmessage
  rcases m.buildPacket_cases message with hsame | ⟨id', offset', origSize', body', hmessage', hadm'⟩
  · rw [hsame, popIfFull_of_none hsettled.none_full] at hpop
    cases Except.ok.inj hpop
  -- the segment is long enough to carry the headers of the record
  have hbody' := List.length_pos_iff.mpr hadm'.1
  have hmlen := congrArg List.length hmessage'
  rw [List.length_append, PacketBuilderData.bytes_length] at hmlen
  obtain ⟨body, rfl, hbody⟩ : ∃ body, segment = wholeHeader id packet.toQTunnelProxy packet.data ++
      body ∧ packet.encode packet.data ++ rest = body ++ more := by
    rw [wholeRecord_eq, List.append_assoc] at hcut
    refine (List.append_eq_append_iff.mp hcut).resolve_left ?_
    rintro ⟨missing, hmissing, -⟩
    have hlong := congrArg List.length hmissing
    rw [List.length_append, wholeHeader_length] at hlong
    omega
  have hword : (UInt16.ofNat (packet.encode packet.data).length).toNat =
      (packet.encode packet.data).length := ofNat_toNat_of_le (by omega)
  have hmsg : message =
      PacketBuilderData.bytes ⟨id, 0, UInt16.ofNat (packet.encode packet.data).length⟩ ++ body :=
    hdrop
  rw [hmsg] at hpop
  by_cases hadm : Admitted 0 (UInt16.ofNat (packet.encode packet.data).length) body
  · rw [buildPacket_new hadm (hm id)] at hpop
    by_cases hfull : body.length = (packet.encode packet.data).length
    · rw [wholeRecord_eq, (List.append_inj hbody hfull.symm).1]
    · have hopen : (some (PacketBuilder.ofFragment 0
          (UInt16.ofNat (packet.encode packet.data).length) body)).any (·.isFull) = false := by
        simpa [PacketBuilder.ofFragment, PacketBuilder.addData, hword] using hfull
      have hafter := fullAt_of_settled_update hsettled id _ hopen
      rw [popIfFull_of_none hafter.none_full] at hpop
      cases Except.ok.inj hpop
  · rw [buildPacket_refused hadm, popIfFull_of_none hsettled.none_full] at hpop
    cases Except.ok.inj hpop

/-- The records of unsplit packets hold ten bytes more each than the packets. -/
theorem recordsOf_length {responses : List (UByte × QTunnelData)}
    (hsmall : ∀ e ∈ responses, e.2.data.length < 65229) :
    (recordsOf responses).flatten.length =
      ((responses.map Prod.snd).map fun p => (p.encode p.data).length).sum + 10 * responses.length := by
  induction responses with
  | nil => rfl
  | cons e responses ih =>
    have hrest := ih fun e he => hsmall e (List.mem_cons_of_mem _ he)
    rw [recordsOf_cons, packetRecords, if_pos (hsmall e (by simp)), List.flatten_append,
      List.length_append, hrest, List.flatten_singleton, wholeRecord_length]
    simp only [List.map_cons, List.sum_cons, List.length_cons]
    omega

/-- No segment returns more than one packet. -/
theorem incomingCaptureLoop_length_le {m m' : QVPNPacketManager} {segments : List (List UByte)}
    {packets : List QTunnelData} (h : incomingCaptureLoop m segments = .ok (packets, m')) :
    packets.length ≤ segments.length := by
  induction segments generalizing m packets with
  | nil =>
    cases Except.ok.inj h
    exact le_rfl
  | cons segment segments ih =>
    rw [incomingCaptureLoop] at h
    split at h
    · exact (ih h).trans (Nat.le_succ _)
    · obtain ⟨⟨packet, t⟩, -, h⟩ := bind_eq_ok_iff.mp h
      obtain ⟨⟨later, t'⟩, hloop, h⟩ := bind_eq_ok_iff.mp h
      cases Except.ok.inj h
      have hlater := ih hloop
      cases packet with
      | none =>
        rw [Option.toList_none, List.nil_append, List.length_cons]
        omega
      | some p =>
        rw [Option.toList_some, List.length_append, List.length_cons, List.length_cons,
          List.length_nil]
        omega

/-- A run in which every segment returns a packet was fed record by record. -/
theorem segments_eq_recordsOf {m m' : QVPNPacketManager} (hm : m.Empty) (hcached : m.cached = none)
    {responses : List (UByte × QTunnelData)} {segments : List (List UByte)}
    (hsend : ∀ e ∈ responses, e.2.Sendable) (hsmall : ∀ e ∈ responses, e.2.data.length < 65229)
    (hne : ∀ s ∈ segments, s ≠ []) (hsize : ∀ s ∈ segments, s.length ≤ 65535)
    (hcut : segments.flatten = (recordsOf responses).flatten)
    (hcount : segments.length ≤ responses.length)
    (h : incomingCaptureLoop m segments = .ok (responses.map Prod.snd, m')) :
    segments = recordsOf responses := by
  induction responses generalizing segments with
  | nil => exact List.eq_nil_of_length_eq_zero (by simpa using hcount)
  | cons e responses ih =>
    obtain ⟨id, packet⟩ := e
    have hpacket := hsend (id, packet) (by simp)
    have hpsmall := hsmall (id, packet) (by simp)
    have hrecords : recordsOf ((id, packet) :: responses) =
        wholeRecord id packet.toQTunnelProxy packet.data :: recordsOf responses := by
      rw [recordsOf_cons, packetRecords, if_pos hpsmall]
      rfl
    rw [hrecords, List.flatten_cons] at hcut
    cases segments with
    | nil => cases Except.ok.inj h
    | cons segment segments =>
      have hsegment := hne segment (by simp)
      rw [incomingCaptureLoop, if_neg (by simpa using hsegment)] at h
      obtain ⟨⟨returned, t⟩, hdecode, h⟩ := bind_eq_ok_iff.mp h
      obtain ⟨⟨later, t'⟩, hloop, h⟩ := bind_eq_ok_iff.mp h
      obtain ⟨hpackets, rfl⟩ := Prod.mk.inj (Except.ok.inj h)
      have hlater := incomingCaptureLoop_length_le hloop
      cases returned with
      | none =>
        rw [Option.toList_none, List.nil_append] at hpackets
        rw [hpackets, List.length_map] at hlater
        simp only [List.length_cons] at hlater hcount
        omega
      | some p =>
        rw [Option.toList_some, List.cons_append, List.nil_append, List.map_cons] at hpackets
        obtain ⟨-, rfl⟩ := List.cons.inj hpackets
        rw [List.flatten_cons] at hcut
        obtain rfl := segment_eq_wholeRecord hm hcached hpacket.valid hpsmall
          (hsize segment (by simp)) hcut hdecode
        have hwhole := decodeData_wholeRecord hpacket.valid hpsmall (hm.settled hcached) (hm id)
        cases Except.ok.inj (hwhole.symm.trans hdecode)
        rw [hrecords, ih (fun e he => hsend e (List.mem_cons_of_mem _ he))
          (fun e he => hsmall e (List.mem_cons_of_mem _ he))
          (fun s hs => hne s (List.mem_cons_of_mem _ hs))
          (fun s hs => hsize s (List.mem_cons_of_mem _ hs)) (List.append_cancel_left hcut)
          (by simpa using hcount) hloop]

/-- The segments that carry data. -/
def dataSegments (segments : List (List UByte)) : List (List UByte) :=
  segments.filter fun segment => segment.length ≠ 0

theorem flatten_dataSegments (segments : List (List UByte)) :
    (dataSegments segments).flatten = segments.flatten := by
  induction segments with
  | nil => rfl
  | cons segment segments ih =>
    by_cases hempty : segment.length = 0
    · rw [dataSegments, List.filter_cons_of_neg (by simpa using hempty), ← dataSegments, ih,
        List.flatten_cons, List.eq_nil_of_length_eq_zero hempty, List.nil_append]
    · rw [dataSegments, List.filter_cons_of_pos (by simpa using hempty), List.flatten_cons,
        ← dataSegments, ih, List.flatten_cons]

/-- Over the captured segments the client returns these packets. -/
def Inbound (m : QVPNPacketManager) (segments : List (List UByte)) (packets : List QTunnelData) :
    Prop :=
  ∃ m', incomingCaptureLoop m segments = .ok (packets, m')

/-- Packets that come out as they went in have lost nothing: no more bytes than are kept of each. -/
theorem kept_eq_of_sum_le {packets : List QTunnelData}
    (h : (packets.map fun p => (p.encode p.data).length).sum ≤
      (packets.map fun p => (p.kept.encode p.kept.data).length).sum) :
    ∀ p ∈ packets, p.kept = p := by
  induction packets with
  | nil =>
    intro p hp
    cases hp
  | cons first rest ih =>
    have hlater : (rest.map fun p => (p.kept.encode p.kept.data).length).sum ≤
        (rest.map fun p => (p.encode p.data).length).sum :=
      List.sum_le_sum fun p _ => p.encode_kept_length_le
    have hfirst := first.encode_kept_length_le
    simp only [List.map_cons, List.sum_cons] at h
    intro p hp
    obtain rfl | hp := List.mem_cons.mp hp
    · exact QTunnelData.kept_eq_of_encode_length (by omega)
    · exact ih (by omega) p hp

/-- What is kept of captured packets can be sent. -/
theorem sendable_kept {responses : List (UByte × QTunnelData)}
    (h : ∀ e ∈ responses, e.2.Capturable) :
    ∀ e ∈ responses.map fun e => (e.1, e.2.kept), e.2.Sendable := by
  intro e he
  obtain ⟨e', he', rfl⟩ := List.mem_map.mp he
  exact (h e' he').sendable

section Captured

variable {client : QVPNPacketManager} (hclient : client.Empty) (hcached : client.cached = none)
  {responses : List (UByte × QTunnelData)} (hcaptured : ∀ e ∈ responses, e.2.Capturable)
  {segments : List (List UByte)}
include hclient hcached hcaptured

/-- From the records themselves the client returns what the split has kept. -/
theorem inbound_records_iff
    (heq : dataSegments segments = recordsOf (responses.map fun e => (e.1, e.2.kept))) :
    Inbound client segments (responses.map Prod.snd) ↔ ∀ e ∈ responses, Lossless e.2.data := by
  have hfilter : incomingCaptureLoop client (dataSegments segments) =
      incomingCaptureLoop client segments := incomingCaptureLoop_filter client segments
  have hloop := incomingCaptureLoop_recordsOf hclient hcached (sendable_kept hcaptured)
  rw [← heq, hfilter, List.map_map] at hloop
  rw [Inbound, hloop]
  constructor
  · rintro ⟨m', hsame⟩ e he
    have hpackets := (Prod.mk.inj (Except.ok.inj hsame)).1
    exact (hcaptured e he).kept_eq_iff.mp (List.map_inj_left.mp hpackets e he)
  · intro hall
    refine ⟨client, ?_⟩
    congr 2
    exact List.map_inj_left.mpr fun e he => (hcaptured e he).kept_eq_iff.mpr (hall e he)

/-- Packets that are not split in two come out of the records only, and whole. -/
theorem Inbound.records (h : Inbound client segments (responses.map Prod.snd))
    (hunsplit : ∀ e ∈ responses, e.2.data.length ≤ 65229)
    (hcut : segments.flatten = (recordsOf (responses.map fun e => (e.1, e.2.kept))).flatten)
    (hsize : ∀ s ∈ segments, s.length ≤ 65535) :
    (∀ e ∈ responses, e.2.data.length < 65229) ∧
      dataSegments segments = recordsOf (responses.map fun e => (e.1, e.2.kept)) := by
  obtain ⟨m', hloop⟩ := h
  have hne : ∀ s ∈ dataSegments segments, s ≠ [] := by
    intro s hs hempty
    have hkeep := (List.mem_filter.mp hs).2
    rw [hempty] at hkeep
    cases hkeep
  have haddrs : ∀ p ∈ responses.map Prod.snd, p.AddrsMatch := by
    intro p hp
    obtain ⟨e, he, rfl⟩ := List.mem_map.mp hp
    exact (hcaptured e he).addrs
  have hloop' : incomingCaptureLoop client (dataSegments segments) = _ :=
    (incomingCaptureLoop_filter client segments).trans hloop
  have hcut' := (flatten_dataSegments segments).trans hcut
  have hheld := incomingCaptureLoop_held (hclient.settled hcached) hne haddrs hloop'
  have hcount := incomingCaptureLoop_length_le hloop'
  have hkept := sendable_kept hcaptured
  have hsmall : ∀ e ∈ responses.map fun e => (e.1, e.2.kept), e.2.data.length < 65229 := by
    intro e he
    obtain ⟨e', he', rfl⟩ := List.mem_map.mp he
    exact kept_length_lt (hunsplit e' he')
  rw [hclient.held_eq, hcut', recordsOf_length hsmall, List.length_map, List.length_map] at hheld
  rw [List.length_map] at hcount
  have hall : ∀ p ∈ responses.map Prod.snd, p.kept = p := by
    refine kept_eq_of_sum_le ?_
    simp only [List.map_map, Function.comp_def] at hheld ⊢
    omega
  have hsame : (responses.map fun e => (e.1, e.2.kept)) = responses := by
    conv_rhs => rw [← List.map_id responses]
    refine List.map_inj_left.mpr fun e he => ?_
    rw [hall e.2 (List.mem_map_of_mem he)]
    rfl
  rw [hsame] at hkept hsmall hcut' hheld ⊢
  refine ⟨hsmall, ?_⟩
  exact segments_eq_recordsOf hclient hcached hkept hsmall hne
    (fun s hs => hsize s (List.mem_filter.mp hs).1) hcut' (by omega) hloop'

end Captured

/-- If the segments are the records, the client returns the encoded packets exactly when no split
loses a part of one. When no packet is split in two, it does so only then. -/
theorem inbound_of_segments_eq_records (client server : QVPNPacketManager)
    (responses : List (UByte × QTunnelData)) (records segments : List (List UByte))
    (hclient : client.Empty) (hcached : client.cached = none) (hserver : server.DefaultConfig)
    (hcaptured : ∀ e ∈ responses, e.2.Capturable)
    (hrecords : encodeResponses server responses = .ok records)
    (hcut : segments.flatten = records.flatten) (hsize : ∀ s ∈ segments, s.length ≤ 65535) :
    (dataSegments segments = records →
        (Inbound client segments (responses.map Prod.snd) ↔ ∀ e ∈ responses, Lossless e.2.data)) ∧
      ((∀ e ∈ responses, e.2.data.length ≤ 65229) →
        (Inbound client segments (responses.map Prod.snd) ↔
          (∀ e ∈ responses, e.2.data.length < 65229) ∧ dataSegments segments = records)) := by
  have hsent : encodeResponses server responses = _ :=
    (encodeResponses_kept hserver fun e he => (hcaptured e he).size).trans
      (encodeResponses_eq hserver (sendable_kept hcaptured))
  obtain rfl := Except.ok.inj (hsent.symm.trans hrecords)
  have hwhole : dataSegments segments = _ → _ := inbound_records_iff hclient hcached hcaptured
  refine ⟨hwhole, fun hunsplit => ⟨?_, ?_⟩⟩
  · intro hinbound
    exact hinbound.records hclient hcached hcaptured hunsplit hcut hsize
  · rintro ⟨hsmall, heq⟩
    exact (hwhole heq).mpr fun e he => Or.inl (hsmall e he)

/-- The query as one record. -/
def queryRecord (id : UByte) : List UByte := wholeRecord id query.toQTunnelProxy query.data

/-- Two records in one segment are both lost. -/
theorem twoRecords_not_inbound :
    (∀ e ∈ [((0 : UByte), query), (1, query)], e.2.Sendable) ∧
      encodeResponses (initial .increasing) [(0, query), (1, query)] =
        .ok [queryRecord 0, queryRecord 1] ∧
      ¬ Inbound (initial .increasing) [queryRecord 0 ++ queryRecord 1] [query, query] := by
  have hsend : ∀ e ∈ [((0 : UByte), query), (1, query)], e.2.Sendable := by
    simpa using query_unsplit.sendable
  refine ⟨hsend, encodeResponses_eq (initial_defaultConfig _) hsend, ?_⟩
  rintro ⟨m', hloop⟩
  have hcount := incomingCaptureLoop_length_le hloop
  exact absurd hcount (by decide)

/-- A record in a segment of its own is returned. -/
theorem inbound_of_segments_eq_records_query :
    Inbound (initial .increasing) [[], queryRecord 0] [query] := by
  have hcomplete := (inbound_of_segments_eq_records (initial .increasing) (initial .increasing)
    [(0, query)] [queryRecord 0] [[], queryRecord 0] (initial_empty _) rfl (initial_defaultConfig _)
    (by simpa using query_unsplit.sendable.capturable)
    (encodeResponses_eq (initial_defaultConfig _) (by simpa using query_unsplit.sendable)) rfl
    (by simp [queryRecord, wholeRecord_length]; decide)).1 rfl
  exact hcomplete.mpr (by simpa using query_unsplit.sendable.size)

end QVPN
