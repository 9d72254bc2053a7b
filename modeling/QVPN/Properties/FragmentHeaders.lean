import QVPN.Properties.LayerStack
import QVPN.Properties.SplitPartition

/-!
# What the headers of one packet say

The first record of a packet goes through the encoder that puts the proxy data in front of its part
and adds their size to the announced one. The later records go through another encoder, which is
handed the header of the split: it announces the size of the payload, and counts its offsets from
the start of the payload. So the headers of a packet in two or more records never describe the same
bytes.
-/

namespace QVPN

open BigEndian Memory QVPNLayersSettings QVPNPacketManager

/-- The records of a packet as they are encoded, before they are copied into one buffer. -/
def encodedRecords (layers : QVPNLayersSettings) (m : QVPNPacketManager) (proxy : QTunnelProxy)
    (payload : List UByte) : Except Fault (List (List UByte)) := do
  let (view, _) ← m.splitPacketView payload
  let (pb, b, e) ← view.getRawWithPbData 0
  let part ← slice payload b e
  let first ← layers.layersEncodePbProxy pb proxy part
  let rest ← encodeLaterParts layers view payload
  return first :: rest

/-- The buffer of `encode_data` holds these records one behind the other. -/
theorem encodeData_eq (layers : QVPNLayersSettings) (m : QVPNPacketManager) (proxy : QTunnelProxy)
    (payload : List UByte) : encodeData layers m proxy payload = (do
      let records ← encodedRecords layers m proxy payload
      return (records.foldl SplittedPacket.addData SplittedPacket.empty, m.nextPacketId)) := by
  simp only [encodeData, encodedRecords, splitPacketView, bind_assoc, pure_bind, List.foldl_cons]

/-- The packet-builder header that a receiver finds behind the header of a record. -/
def builderHeader (record : List UByte) : PacketBuilderData where
  packetId := record.getD 5 0
  offset := join (record.getD 6 0) (record.getD 7 0)
  originalSize := join (record.getD 8 0) (record.getD 9 0)

/-- The headers of all records carry one id and the size of the proxy data and the payload, and
each has as its offset the number of bytes behind the headers before it. -/
structure DescribeOneString (proxy : QTunnelProxy) (payload : List UByte)
    (records : List (List UByte)) : Prop where
  id : ∃ id, ∀ record ∈ records, (builderHeader record).packetId = id
  size : ∀ record ∈ records,
    (builderHeader record).originalSize.toNat = (proxy.encode payload).length
  offset : ∀ (i : ℕ) (record : List UByte), records[i]? = some record →
    (builderHeader record).offset.toNat = ((records.take i).map fun r => r.length - 10).sum

/-- The header of a later record is the one it is encoded with. -/
theorem builderHeader_layersEncodePb (pb : PacketBuilderData) (part : List UByte) :
    builderHeader (defaultLayers.layersEncodePb pb part) = pb := by
  obtain ⟨id, offset, size⟩ := pb
  have hheader : builderHeader (defaultLayers.layersEncodePb ⟨id, offset, size⟩ part) =
      ⟨id, join (hi offset) (lo offset), join (hi size) (lo size)⟩ := rfl
  rw [hheader, join_hi_lo, join_hi_lo]

section View

/-- Every range that is added has its separators. -/
theorem foldl_addData_size (ranges : List (ℤ × ℤ)) (view : SplittedPacketView) :
    (ranges.foldl (fun s r => s.addData r.1 r.2) view).size = view.size + ranges.length := by
  induction ranges generalizing view with
  | nil => rfl
  | cons r ranges ih =>
    rw [List.foldl_cons, ih, List.length_cons, SplittedPacketView.size, SplittedPacketView.size,
      SplittedPacketView.addData, List.length_append, List.length_singleton]
    omega

/-- The start of a view is kept once it is there. -/
theorem foldl_addData_data (ranges : List (ℤ × ℤ)) {view : SplittedPacketView} {data : ℤ}
    (h : view.data = some data) :
    (ranges.foldl (fun s r => s.addData r.1 r.2) view).data = some data := by
  induction ranges generalizing view with
  | nil => exact h
  | cons r ranges ih =>
    rw [List.foldl_cons]
    apply ih
    rw [SplittedPacketView.addData, h]
    rfl

/-- The first range begins with the payload. -/
theorem ranges_head {m : QVPNPacketManager} {size : ℕ} {r : ℤ × ℤ} {ranges : List (ℤ × ℤ)}
    (h : m.ranges size = .ok (r :: ranges)) : r.1 = 0 := by
  unfold QVPNPacketManager.ranges at h
  split at h
  · split at h
    · cases h
    · have hloop := Except.ok.inj h
      cases hcount : (UInt8.ofNat (size / m.dataSplitSize.toNat)).toNat with
      | zero =>
        rw [hcount] at hloop
        cases hloop
      | succ count =>
        rw [hcount, splitRanges] at hloop
        rw [← (List.cons.inj hloop).1]
        simp
  · cases Except.ok.inj h
    rfl

/-- A split payload is viewed from its start. -/
theorem viewed_data {m : QVPNPacketManager} {size : ℕ} {ranges : List (ℤ × ℤ)}
    (h : m.ranges size = .ok ranges) (hne : ranges ≠ []) :
    (ranges.foldl (fun s r => s.addData r.1 r.2)
      (⟨m.lastPacketId, none, 0, []⟩ : SplittedPacketView)).data = some 0 := by
  obtain ⟨r, later, rfl⟩ := List.exists_cons_of_ne_nil hne
  rw [List.foldl_cons]
  apply foldl_addData_data
  rw [SplittedPacketView.addData, ranges_head h]
  rfl

/-- The size of a view is no larger than the end of its last range. -/
theorem dataSize_le_end {ranges : List (ℤ × ℤ)} (id : UByte) (h : ranges ≠ []) :
    ∃ b e, (ranges.foldl (fun s r => s.addData r.1 r.2)
        (⟨id, none, 0, []⟩ : SplittedPacketView)).separators[ranges.length - 1]? = some (b, e) ∧
      ((b : ℤ) ≤ e → ((ranges.foldl (fun s r => s.addData r.1 r.2)
        (⟨id, none, 0, []⟩ : SplittedPacketView)).dataSize.toNat : ℤ) ≤ e) := by
  obtain ⟨init, last, rfl⟩ := (List.eq_nil_or_concat ranges).resolve_left h
  have hsize := foldl_addData_size init (⟨id, none, 0, []⟩ : SplittedPacketView)
  rw [List.concat_eq_append, List.foldl_append, List.foldl_cons, List.foldl_nil]
  generalize init.foldl (fun s r => s.addData r.1 r.2)
    (⟨id, none, 0, []⟩ : SplittedPacketView) = view at *
  have hlength : view.separators.length = init.length := by
    simpa [SplittedPacketView.size] using hsize
  refine ⟨view.dataSize.toNat, view.dataSize.toNat + (last.2 - last.1), ?_, ?_⟩
  · rw [List.length_append, List.length_singleton, Nat.add_sub_cancel, ← hlength,
      SplittedPacketView.addData]
    simp
  · intro hle
    rw [SplittedPacketView.addData]
    dsimp only
    rw [UInt16.toNat_add, toNat_ofInt]
    omega

end View

section Later

variable {m : QVPNPacketManager} {proxy : QTunnelProxy} {payload : List UByte}
  {records : List (List UByte)}

/-- What a successful encoding reads: the view of the split, and its later parts. -/
theorem encodedRecords_cases (h : encodedRecords defaultLayers m proxy payload = .ok records) :
    ∃ ranges first rest, m.ranges payload.length = .ok ranges ∧ records = first :: rest ∧
      encodeLaterParts defaultLayers (ranges.foldl (fun s r => s.addData r.1 r.2)
        ⟨m.lastPacketId, none, 0, []⟩) payload = .ok rest := by
  obtain ⟨⟨view, m'⟩, hview, h⟩ := bind_eq_ok_iff.mp h
  obtain ⟨ranges, hranges, hview⟩ := bind_eq_ok_iff.mp hview
  cases Except.ok.inj hview
  dsimp only at h
  obtain ⟨⟨pb, b, e⟩, -, hfirst⟩ := bind_eq_ok_iff.mp h
  obtain ⟨part, -, hencoded⟩ := bind_eq_ok_iff.mp hfirst
  obtain ⟨first, -, hlater⟩ := bind_eq_ok_iff.mp hencoded
  obtain ⟨rest, hrest, hrecords⟩ := bind_eq_ok_iff.mp hlater
  exact ⟨ranges, first, rest, hranges, (Except.ok.inj hrecords).symm, hrest⟩

/-- Every later part is read with its header, and its record begins with it. -/
theorem encodeLaterParts_getElem? {view : SplittedPacketView} {rest : List (List UByte)}
    (h : encodeLaterParts defaultLayers view payload = .ok rest) {i : ℕ} (hi : i + 1 < view.size) :
    ∃ pb b e part, view.getRawWithPbData (i + 1) = .ok (pb, b, e) ∧ slice payload b e = .ok part ∧
      rest[i]? = some (defaultLayers.layersEncodePb pb part) := by
  have hindex : ((List.range view.size).drop 1)[i]? = some (i + 1) := by
    rw [List.getElem?_drop, Nat.add_comm 1 i, List.getElem?_range hi]
  obtain ⟨record, hrecord, hencoded⟩ := mapM_getElem? h hindex
  obtain ⟨⟨pb, b, e⟩, hraw, hencoded⟩ := bind_eq_ok_iff.mp hencoded
  obtain ⟨part, hpart, hencoded⟩ := bind_eq_ok_iff.mp hencoded
  cases Except.ok.inj hencoded
  exact ⟨pb, b, e, part, hraw, hpart, hrecord⟩

/-- The last of two or more records announces no more bytes than the payload has. -/
theorem last_originalSize_le (h : encodedRecords defaultLayers m proxy payload = .ok records)
    (htwo : 2 ≤ records.length) :
    ∃ record ∈ records, (builderHeader record).originalSize.toNat ≤ payload.length := by
  obtain ⟨ranges, first, rest, hranges, rfl, hrest⟩ := encodedRecords_cases h
  have hsize := foldl_addData_size ranges (⟨m.lastPacketId, none, 0, []⟩ : SplittedPacketView)
  have hnone : (⟨m.lastPacketId, none, 0, []⟩ : SplittedPacketView).size = 0 := rfl
  rw [hnone, Nat.zero_add] at hsize
  have hcount := mapM_length hrest
  rw [List.length_drop, List.length_range, hsize] at hcount
  rw [List.length_cons] at htwo
  have hne : ranges ≠ [] := by
    rintro rfl
    rw [List.length_nil] at hcount
    omega
  have hdata := viewed_data hranges hne
  obtain ⟨b, e, hseparator, hle⟩ := dataSize_le_end m.lastPacketId hne
  generalize ranges.foldl (fun s r => s.addData r.1 r.2)
    (⟨m.lastPacketId, none, 0, []⟩ : SplittedPacketView) = view at *
  have hlast : ranges.length - 2 + 1 = ranges.length - 1 := by omega
  obtain ⟨pb, pbegin, pend, part, hraw, hpart, hrecord⟩ :=
    encodeLaterParts_getElem? hrest (show ranges.length - 2 + 1 < view.size by omega)
  rw [hlast, SplittedPacketView.getRawWithPbData, readAt_eq_ok_iff.mpr hseparator, ok_bind,
    hdata] at hraw
  cases Except.ok.inj hraw
  obtain ⟨-, horder, hend, -⟩ := slice_eq_ok_iff.mp hpart
  refine ⟨_, List.mem_cons_of_mem _ (List.mem_of_getElem? hrecord), ?_⟩
  rw [builderHeader_layersEncodePb]
  have hannounced := hle (by omega)
  dsimp only
  omega

/-- The headers of two or more records never describe one byte string. -/
theorem not_describeOneString (h : encodedRecords defaultLayers m proxy payload = .ok records)
    (htwo : 2 ≤ records.length) : ¬ DescribeOneString proxy payload records := by
  intro hdescribe
  obtain ⟨record, hmem, hle⟩ := last_originalSize_le h htwo
  have hproxy := List.length_pos_iff.mpr (proxy.encode_ne_nil [])
  have hsize := hdescribe.size record hmem
  rw [proxy.encode_length payload] at hsize
  omega

end Later

/-- The two records of a datagram of six bytes in parts of three. -/
def datagramRecords : List (List UByte) :=
  [TLS13Record.generateObjectBytes
    (PacketBuilderData.bytes ⟨0, 0, 22⟩ ++ datagramProxy.encode [1, 2, 3]),
  TLS13Record.generateObjectBytes (PacketBuilderData.bytes ⟨0, 3, 6⟩ ++ [4, 5, 6])]

theorem encodedRecords_datagram :
    encodedRecords defaultLayers smallSplit datagramProxy [1, 2, 3, 4, 5, 6] =
      .ok datagramRecords := rfl

theorem datagramRecords_not_describeOneString :
    ¬ DescribeOneString datagramProxy [1, 2, 3, 4, 5, 6] datagramRecords :=
  not_describeOneString encodedRecords_datagram (by decide)

/-- The first header tells 22 bytes, the second six, and an offset without the proxy data. -/
theorem datagramHeaders_differ :
    encodedRecords defaultLayers smallSplit datagramProxy [1, 2, 3, 4, 5, 6] =
      .ok datagramRecords ∧
    datagramRecords.map builderHeader = [⟨0, 0, 22⟩, ⟨0, 3, 6⟩] ∧
    ¬ DescribeOneString datagramProxy [1, 2, 3, 4, 5, 6] datagramRecords := by
  refine ⟨encodedRecords_datagram, by decide, ?_⟩
  intro h
  have hsize := h.size _ (List.mem_cons_of_mem _ List.mem_cons_self)
  revert hsize
  decide

end QVPN
