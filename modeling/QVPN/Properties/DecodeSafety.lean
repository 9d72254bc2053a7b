import QVPN.Driver.Codec

/-!
# Decoding arbitrary bytes

The bytes of a peer reach the decoder unchecked. Unwrapping a record is legal from five bytes on,
and collecting fragments is always legal. What remains is the packet that becomes complete: its
header fields lead to the length of the proto data and from there to the payload, and no check
stands before these reads. So decoding is legal exactly when the record has a header and the
completed packet, if there is one, is as long as its own lengths say.
-/

namespace QVPN

open BigEndian Memory QVPNLayersSettings QVPNPacketManager

/-- The bytes behind the header of a record, as the 16-bit views delimit them. -/
def recordBody (record : List UByte) : List UByte :=
  (record.drop 5).take ((record.length - 5) % 65536)

/-- A packet as long as its own lengths say. The addresses of any protocol other than IPv4 are
counted as sixteen bytes. -/
def PacketFits (data : List UByte) : Prop :=
  let lengthPos := if data.getD 0 0 = NetProtocol.IPv4.val then 14 else 38
  lengthPos + 2 + (join (data.getD lengthPos 0) (data.getD (lengthPos + 1) 0)).toNat ≤ data.length

/-- The bytes of the first full builder in iteration order, after a record was taken in. -/
def completedPacket (m : QVPNPacketManager) (record : List UByte) : Option (List UByte) :=
  let next := (m.buildPacket (recordBody record)).2
  (next.order.ids.find? next.fullAt).bind fun id => (next.packets id).map (·.data)

/-- Unwrapping is legal exactly when there is a record header. -/
theorem layerDecode_eq (record : List UByte) :
    QLayer.layerDecode record =
      if 5 ≤ record.length then .ok (recordBody record) else .error .outOfBounds := by
  have hview : (UInt16.ofNat record.length).toNat = record.length % 65536 := by simp
  have happ : (UInt16.ofInt (((record.length % 65536 : ℕ) : ℤ) - 5)).toNat =
      (record.length + 65531) % 65536 := by
    rw [toNat_ofInt]
    omega
  simp only [QLayer.layerDecode, TLS13RecordView.getTlsRecordData,
    TLS13ApplicationDataView.getAppData, hview, happ]
  split
  · rename_i hlen
    rw [slice_eq_ok_iff]
    have hsize : ((5 : ℤ) + ((record.length + 65531) % 65536 : ℕ) - 5).toNat =
        (record.length - 5) % 65536 := by omega
    refine ⟨by omega, by omega, by omega, ?_⟩
    rw [hsize, recordBody, show (5 : ℤ).toNat = 5 from rfl]
  · rw [slice, if_neg (by omega)]

/-- The tail of a packet behind its addresses: proto data and payload. -/
theorem legal_protoData {γ : Type} (data : List UByte) (skip : ℕ)
    (g : UShort → List UByte → List UByte → γ) :
    Legal (do
      let data ← eraseFront data skip
      let size ← read16 data 0
      let protoBytes ← slice data 2 ((size.toNat + 2 : ℕ) : ℤ)
      let payload ← eraseFront data (size.toNat + 2)
      return g size protoBytes payload) ↔
        skip + 2 + (join (data.getD skip 0) (data.getD (skip + 1) 0)).toNat ≤ data.length := by
  have hget (i : ℕ) : (data.drop skip).getD i 0 = data.getD (skip + i) 0 := by
    simp [List.getD, List.getElem?_drop]
  simp only [legal_eraseFront_bind, legal_read16_bind, legal_slice_bind, hget, Nat.add_zero,
    List.length_drop, pure, Except.pure, legal_ok, and_true]
  generalize (join (data.getD skip 0) (data.getD (skip + 1) 0)).toNat = size
  constructor
  · rintro ⟨_, _, _, h⟩
    omega
  · intro h
    exact ⟨by omega, by omega, ⟨by omega, by omega, by omega⟩, by omega⟩

/-- The addresses are there when both of them and both ports are. -/
theorem readAddrs_cases (data : List UByte) (size : ℕ) :
    (∃ src srcPort dst dstPort,
      QTunnelData.readAddrs data size = .ok (src, srcPort, dst, dstPort) ∧ src.ip.length = size) ∨
    (data.length < 2 * size + 4 ∧ ¬Legal (QTunnelData.readAddrs data size)) := by
  by_cases h : 2 * size + 4 ≤ data.length
  · obtain ⟨src, hsrc⟩ := slice_of_le data (le_refl 0) (Int.natCast_nonneg size) (by omega)
    obtain ⟨srcPort, hsrcPort⟩ := read16_of_lt (show size + 1 < data.length by omega)
    obtain ⟨dst, hdst⟩ := slice_of_le data (show (0 : ℤ) ≤ size + 2 by omega)
      (show (size : ℤ) + 2 ≤ size + 2 + size by omega) (by omega)
    obtain ⟨dstPort, hdstPort⟩ := read16_of_lt (show size + 2 + size + 1 < data.length by omega)
    have hlen := slice_length hsrc
    refine Or.inl ⟨⟨src⟩, srcPort, ⟨dst⟩, dstPort, ?_, by simpa using hlen⟩
    rw [QTunnelData.readAddrs, hsrc, ok_bind, hsrcPort, ok_bind, hdst, ok_bind, hdstPort]
    rfl
  · refine Or.inr ⟨by omega, ?_⟩
    simp only [QTunnelData.readAddrs, legal_slice_bind, legal_read16_bind]
    rintro ⟨_, _, _, hlast, _⟩
    omega

/-- The decoder of a completed packet stays inside exactly when the packet fits. -/
theorem legal_ofBytes (data : List UByte) : Legal (QTunnelData.ofBytes data) ↔ PacketFits data := by
  have hdrop (i : ℕ) : (data.drop 2).getD i 0 = data.getD (2 + i) 0 := by
    simp [List.getD, List.getElem?_drop]
  have hfront : Legal (QTunnelData.ofBytes data) ↔ 2 ≤ data.length ∧ Legal (do
      let addrs ← QTunnelData.readAddrsByProtocol ⟨data.getD 0 0⟩ (data.drop 2)
      let data' ← eraseFront (data.drop 2) (addrs.1.getAddrSize * 2 + 4)
      let size ← read16 data' 0
      let protoBytes ← slice data' 2 ((size.toNat + 2 : ℕ) : ℤ)
      let payload ← eraseFront data' (size.toNat + 2)
      return (⟨⟨⟨data.getD 0 0⟩, ⟨data.getD 1 0⟩, addrs.1, addrs.2.1, addrs.2.2.1, addrs.2.2.2,
        .ofLength size protoBytes⟩, payload⟩ : QTunnelData)) := by
    rw [QTunnelData.ofBytes, legal_readAt_bind 0, legal_readAt_bind 0, legal_eraseFront_bind]
    constructor
    · rintro ⟨_, _, h⟩
      exact h
    · intro h
      exact ⟨by omega, by omega, h⟩
  -- addresses that are read leave the proto data behind them, `size` bytes for each
  have hread (size : ℕ) {addrs : Except Fault (NetAddr × UShort × NetAddr × UShort)}
      (hcases : (∃ src srcPort dst dstPort,
          addrs = .ok (src, srcPort, dst, dstPort) ∧ src.ip.length = size) ∨
        ((data.drop 2).length < 2 * size + 4 ∧ ¬Legal addrs)) :
      (2 ≤ data.length ∧ Legal (do
        let addrs ← addrs
        let data' ← eraseFront (data.drop 2) (addrs.1.getAddrSize * 2 + 4)
        let size ← read16 data' 0
        let protoBytes ← slice data' 2 ((size.toNat + 2 : ℕ) : ℤ)
        let payload ← eraseFront data' (size.toNat + 2)
        return (⟨⟨⟨data.getD 0 0⟩, ⟨data.getD 1 0⟩, addrs.1, addrs.2.1, addrs.2.2.1, addrs.2.2.2,
          .ofLength size protoBytes⟩, payload⟩ : QTunnelData))) ↔
        2 * size + 6 + 2 + (join (data.getD (2 * size + 6) 0)
          (data.getD (2 * size + 6 + 1) 0)).toNat ≤ data.length := by
    rw [List.length_drop] at hcases
    obtain ⟨src, srcPort, dst, dstPort, rfl, hsrc⟩ | ⟨hlen, hnot⟩ := hcases
    · rw [ok_bind]
      dsimp only [NetAddr.getAddrSize]
      rw [hsrc, legal_protoData, hdrop, hdrop, List.length_drop,
        show 2 + (size * 2 + 4) = 2 * size + 6 by omega,
        show 2 + (size * 2 + 4 + 1) = 2 * size + 6 + 1 by omega]
      omega
    · constructor
      · rintro ⟨_, h⟩
        cases addrs with
        | ok _ => exact absurd (legal_ok _) hnot
        | error e => exact absurd h (not_legal_error e)
      · intro h
        omega
  rw [hfront, PacketFits]
  by_cases hnet : data.getD 0 0 = NetProtocol.IPv4.val
  · have hip : (⟨data.getD 0 0⟩ : NetProtocol) = .IPv4 := by rw [hnet]
    rw [QTunnelData.readAddrsByProtocol, if_pos hip, if_pos hnet]
    exact hread 4 (readAddrs_cases _ 4)
  · have hip : (⟨data.getD 0 0⟩ : NetProtocol) ≠ .IPv4 := fun h => hnet (congrArg NetProtocol.val h)
    rw [QTunnelData.readAddrsByProtocol, if_neg hip, if_neg hnet]
    split
    · exact hread 16 (readAddrs_cases _ 16)
    · exact hread 16 (Or.inl ⟨.default, 0, .default, 0, rfl, rfl⟩)

/-- Popping never faults, and what is popped is the first full builder. -/
theorem popIfFull_eq (m : QVPNPacketManager) : ∃ m', m.popIfFull =
    .ok ((m.order.ids.find? m.fullAt).bind fun id => (m.packets id).map (·.data), m') := by
  cases hfind : m.order.ids.find? m.fullAt with
  | none => exact ⟨m, popIfFull_of_find_none hfind⟩
  | some id =>
    obtain ⟨pb, hid, -, hpop⟩ := popIfFull_of_find hfind
    exact ⟨_, by rw [hpop, Option.bind_some, hid, Option.map_some]⟩

/-- The decoder that gives nothing for bytes that cannot be decoded. -/
def decodeOrNone (m : QVPNPacketManager) (record : List UByte) :
    Option QTunnelData × QVPNPacketManager :=
  match QLayer.layerDecode record with
  | .error _ => (none, m)
  | .ok body =>
    match (m.buildPacket body).2.popIfFull with
    | .error _ => (none, m)
    | .ok (none, m) => (none, m)
    | .ok (some data, m) => ((QTunnelData.ofBytes data).toOption, m)

/-- Decoding stays inside and gives nothing for what cannot be decoded, exactly when there is a
record header and a packet that becomes complete is as long as its own lengths say. -/
theorem decodeData_eq_decodeOrNone_iff (m : QVPNPacketManager) (record : List UByte) :
    decodeData defaultLayers m record = .ok (decodeOrNone m record) ↔
      5 ≤ record.length ∧ ∀ data, completedPacket m record = some data → PacketFits data := by
  rw [decodeData, layersDecode_default, decodeOrNone, layerDecode_eq, completedPacket]
  by_cases hlen : 5 ≤ record.length
  · obtain ⟨m', hpop⟩ := popIfFull_eq (m.buildPacket (recordBody record)).2
    rw [if_pos hlen, ok_bind]
    dsimp only
    rw [hpop, ok_bind]
    cases (List.find? _ _).bind _ with
    | none => simp [hlen, pure, Except.pure]
    | some data =>
      simp only [hlen, true_and, Option.some.injEq, forall_eq', ← legal_ofBytes]
      cases QTunnelData.ofBytes data with
      | ok packet => simp [pure, Except.pure, Except.toOption]
      | error e => simp
  · simp [hlen]

/-- The packet of one byte is complete at once, and its decoder reads behind it. -/
theorem decodeData_oneByte_not_inside :
    ¬Legal (decodeData defaultLayers (initial .increasing)
      [23, 3, 3, 0, 6, 0, 0, 0, 0, 1, 4]) := by
  have hfault : decodeData defaultLayers (initial .increasing)
      [23, 3, 3, 0, 6, 0, 0, 0, 0, 1, 4] = .error .outOfBounds := rfl
  rw [hfault]
  exact not_legal_error _

end QVPN
