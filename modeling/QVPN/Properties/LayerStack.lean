import QVPN.Properties.DecodeSafety

/-!
# Stacks of layers

A stack encodes with every active layer and decodes with every active layer. An encoding layer
puts a record header, the packet-builder header and the proxy data in front of its bytes, whatever
these are; a decoding layer takes away the record header alone. So each layer beyond the first
leaves another copy of the headers, and a stack without an active layer puts none there.
-/

namespace QVPN

open Memory

/-- What a decoded stack hands to `build_packet`: the packet-builder header, enlarged by the proxy
data as the encoder announces it, then the proxy data and the payload. -/
def LayersInvert (layers : QVPNLayersSettings) (pb : PacketBuilderData) (proxy : QTunnelProxy)
    (payload : List UByte) : Prop :=
  ∃ size, proxy.getProxyDataSize = .ok size ∧
    (layers.layersEncodePbProxy pb proxy payload >>= layers.layersDecode) =
      .ok (PacketBuilderData.bytes ⟨pb.packetId, pb.offset, pb.originalSize + size⟩ ++
        proxy.encode payload)

/-- The number of layers that are switched on. -/
def QVPNLayersSettings.activeCount (layers : QVPNLayersSettings) : ℕ :=
  layers.countP LayerWrapper.active

/-- What an encoding layer puts between the record header and its bytes. -/
def layerHeader (pb : PacketBuilderData) (proxy : QTunnelProxy) (size : UShort) : List UByte :=
  PacketBuilderData.bytes ⟨pb.packetId, pb.offset, pb.originalSize + size⟩ ++ proxy.encode []

/-- Bytes with a number of layers around them, each with the same header. -/
def layered (header : List UByte) : ℕ → List UByte → List UByte
  | 0, data => data
  | k + 1, data => layered header k (TLS13Record.generateObjectBytes (header ++ data))

/-- The headers of three or more layers are a multiple of 65536 bytes too long, so that the 16-bit
size of a view hides them, and the bytes at which the decoder ends up happen to be the same. -/
structure Coincides (header payload : List UByte) (k : ℕ) : Prop where
  three : 3 ≤ k
  wraps : 65536 ∣ (k - 1) * header.length
  fits : 5 * (k - 1) + header.length + payload.length ≤ 65535
  same : ((layered header k payload).drop (5 * k)).take (header.length + payload.length) =
    header ++ payload

/-- A fallible step, taken a number of times. -/
def times {α : Type} (f : α → Except Fault α) : ℕ → α → Except Fault α
  | 0, x => .ok x
  | k + 1, x => f x >>= times f k

/-- Switched-off layers do nothing. -/
theorem foldlM_active (f : List UByte → Except Fault (List UByte)) (layers : QVPNLayersSettings)
    (data : List UByte) :
    layers.foldlM (fun res l => if l.active then f res else .ok res) data =
      times f layers.activeCount data := by
  induction layers generalizing data with
  | nil => rfl
  | cons l layers ih =>
    rw [List.foldlM_cons, QVPNLayersSettings.activeCount, List.countP_cons]
    by_cases h : l.active = true
    · rw [if_pos h, if_pos h, times]
      apply congrArg (f data >>= ·)
      funext res
      exact ih res
    · rw [if_neg h, if_neg h, ok_bind]
      exact ih data

/-- A stack decodes as often as it encodes. -/
theorem layersDecode_eq (layers : QVPNLayersSettings) (data : List UByte) :
    layers.layersDecode data = times QLayer.layerDecode layers.activeCount data := by
  rw [QVPNLayersSettings.layersDecode, foldlM_active, QVPNLayersSettings.activeCount,
    List.countP_reverse, QVPNLayersSettings.activeCount]

section Encode

variable {pb : PacketBuilderData} {proxy : QTunnelProxy} {size : UShort}

/-- A layer encodes with its two headers. -/
theorem layerEncodePbProxy_eq (hsize : proxy.getProxyDataSize = .ok size) (data : List UByte) :
    QLayer.layerEncodePbProxy pb proxy data =
      .ok (TLS13Record.generateObjectBytes (layerHeader pb proxy size ++ data)) := by
  rw [QLayer.layerEncodePbProxy, TLS13ApplicationData.generateObjectBytesPbProxy, hsize]
  simp only [layerHeader, QTunnelProxy.encode, List.append_nil, List.append_assoc]
  rfl

/-- A stack encodes with a header for each active layer. -/
theorem layersEncodePbProxy_eq (hsize : proxy.getProxyDataSize = .ok size)
    (layers : QVPNLayersSettings) (payload : List UByte) :
    layers.layersEncodePbProxy pb proxy payload =
      .ok (layered (layerHeader pb proxy size) layers.activeCount payload) := by
  rw [QVPNLayersSettings.layersEncodePbProxy, foldlM_active]
  generalize layers.activeCount = k
  induction k generalizing payload with
  | zero => rfl
  | succ k ih =>
    rw [times, layerEncodePbProxy_eq hsize, ok_bind, ih]
    rfl

end Encode

/-- Every layer makes the bytes longer by the same amount. -/
theorem layered_length (header : List UByte) (k : ℕ) (data : List UByte) :
    (layered header k data).length = k * header.length + 5 * k + data.length := by
  induction k generalizing data with
  | zero => simp [layered]
  | succ k ih =>
    have hmul : (k + 1) * header.length = k * header.length + header.length := Nat.succ_mul _ _
    rw [layered, ih, TLS13Record.generateObjectBytes_length, List.length_append, hmul]
    omega

/-- Bytes short enough for a 16-bit size lose five of them in each layer. -/
theorem times_layerDecode_short (k : ℕ) {data res : List UByte} (hshort : data.length ≤ 65535) :
    times QLayer.layerDecode k data = .ok res ↔ 5 * k ≤ data.length ∧ res = data.drop (5 * k) := by
  induction k generalizing data with
  | zero =>
    rw [times, Except.ok.injEq, eq_comm]
    simp
  | succ k ih =>
    rw [times, layerDecode_eq]
    by_cases hlen : 5 ≤ data.length
    · have hbody : recordBody data = data.drop 5 := by
        rw [recordBody]
        apply List.take_of_length_le
        rw [List.length_drop]
        omega
      have hdrop : (data.drop 5).length ≤ 65535 := by
        rw [List.length_drop]
        omega
      rw [if_pos hlen, ok_bind, hbody, ih hdrop, List.length_drop, List.drop_drop,
        show 5 + 5 * k = 5 * (k + 1) by omega]
      apply and_congr_left
      intro _
      omega
    · rw [if_neg hlen, error_bind]
      constructor
      · intro h
        cases h
      · rintro ⟨hfive, -⟩
        omega

/-- The first decoding layer cuts the bytes to their 16-bit size, the others lose five of them. -/
theorem times_layerDecode_succ (k : ℕ) {data res : List UByte} (hlen : 5 ≤ data.length) :
    times QLayer.layerDecode (k + 1) data = .ok res ↔
      5 * k ≤ (data.length - 5) % 65536 ∧
        res = (data.drop (5 * (k + 1))).take ((data.length - 5) % 65536 - 5 * k) := by
  have hbody : (recordBody data).length = (data.length - 5) % 65536 := by
    have hmod := Nat.mod_le (data.length - 5) 65536
    rw [recordBody, List.length_take, List.length_drop]
    omega
  rw [times, layerDecode_eq, if_pos hlen, ok_bind, times_layerDecode_short k (by omega), hbody,
    recordBody, List.drop_take, List.drop_drop, show 5 + 5 * k = 5 * (k + 1) by omega]

/-- The size that the first decoding layer sees is the length of one header and the payload, and of
the record headers, exactly when a view can hold it and hides the other headers. -/
theorem layered_mod {c n j : ℕ} :
    ((j + 1) * c + 5 * (j + 1) + n - 5) % 65536 = 5 * j + c + n ↔
      65536 ∣ j * c ∧ 5 * j + c + n ≤ 65535 := by
  rw [Nat.add_one_mul]
  generalize j * c = extra
  constructor
  · intro h
    exact ⟨by omega, by omega⟩
  · rintro ⟨hdvd, hfits⟩
    omega

/-- A stack with an active layer is undone when its length is that of one layer and the bytes
behind the record headers are those of one layer. -/
theorem times_layerDecode_layered {header payload : List UByte} (j : ℕ) :
    times QLayer.layerDecode (j + 1) (layered header (j + 1) payload) = .ok (header ++ payload) ↔
      65536 ∣ j * header.length ∧ 5 * j + header.length + payload.length ≤ 65535 ∧
        ((layered header (j + 1) payload).drop (5 * (j + 1))).take
          (header.length + payload.length) = header ++ payload := by
  have hlength := layered_length header (j + 1) payload
  have hfive : 5 ≤ (layered header (j + 1) payload).length := by omega
  rw [times_layerDecode_succ j hfive, ← and_assoc, ← layered_mod, ← hlength]
  have hmod := Nat.mod_le ((layered header (j + 1) payload).length - 5) 65536
  constructor
  · rintro ⟨hle, heq⟩
    have hcut := congrArg List.length heq
    rw [List.length_append, List.length_take, List.length_drop] at hcut
    have hsize : ((layered header (j + 1) payload).length - 5) % 65536 =
        5 * j + header.length + payload.length := by omega
    rw [hsize, show 5 * j + header.length + payload.length - 5 * j =
      header.length + payload.length by omega] at heq
    exact ⟨hsize, heq.symm⟩
  · rintro ⟨hsize, hsame⟩
    rw [hsize, show 5 * j + header.length + payload.length - 5 * j =
      header.length + payload.length by omega]
    exact ⟨by omega, hsame.symm⟩

/-- One layer is undone when its record fits a 16-bit size, two never. -/
theorem times_layerDecode_iff {header payload : List UByte} (hheader : header ≠ []) (k : ℕ) :
    times QLayer.layerDecode k (layered header k payload) = .ok (header ++ payload) ↔
      k = 1 ∧ header.length + payload.length ≤ 65535 ∨ Coincides header payload k := by
  have hpos : 0 < header.length := List.length_pos_iff.mpr hheader
  cases k with
  | zero =>
    constructor
    · intro h
      have hlength := congrArg List.length (Except.ok.inj h)
      rw [layered, List.length_append] at hlength
      omega
    · rintro (⟨hone, -⟩ | hcoincides)
      · omega
      · exact absurd hcoincides.three (by decide)
  | succ j =>
    rw [times_layerDecode_layered j]
    constructor
    · rintro ⟨hdvd, hfits, hsame⟩
      by_cases hone : j = 0
      · exact Or.inl ⟨by omega, by omega⟩
      · -- a second header alone would have to be as long as no view can hold
        have htwo : j ≠ 1 := by
          rintro rfl
          have hlarge := Nat.le_of_dvd (by omega) hdvd
          omega
        exact Or.inr ⟨by omega, hdvd, hfits, hsame⟩
    · rintro (⟨hone, hfits⟩ | hcoincides)
      · obtain rfl : j = 0 := by omega
        refine ⟨by omega, by omega, ?_⟩
        have hdrop : (layered header 1 payload).drop 5 = header ++ payload := rfl
        rw [hdrop]
        exact List.take_of_length_le (by rw [List.length_append])
      · exact ⟨hcoincides.wraps, hcoincides.fits, hcoincides.same⟩

/-- A stack is undone exactly when one layer is active and its record fits a 16-bit size, or when
the copies of the headers coincide. -/
theorem layersInvert_iff (layers : QVPNLayersSettings) (pb : PacketBuilderData)
    (proxy : QTunnelProxy) (payload : List UByte) :
    LayersInvert layers pb proxy payload ↔ ∃ size, proxy.getProxyDataSize = .ok size ∧
      (layers.activeCount = 1 ∧ 5 + (proxy.encode payload).length ≤ 65535 ∨
        Coincides (layerHeader pb proxy size) payload layers.activeCount) := by
  apply exists_congr
  intro size
  apply and_congr_right
  intro hsize
  have hexpected : PacketBuilderData.bytes ⟨pb.packetId, pb.offset, pb.originalSize + size⟩ ++
      proxy.encode payload = layerHeader pb proxy size ++ payload := by
    simp only [layerHeader, QTunnelProxy.encode, List.append_nil, List.append_assoc]
  have hlength : (layerHeader pb proxy size).length + payload.length =
      5 + (proxy.encode payload).length := by
    rw [← List.length_append, ← hexpected, List.length_append, PacketBuilderData.bytes_length]
  have hheader : layerHeader pb proxy size ≠ [] := List.cons_ne_nil _ _
  rw [layersEncodePbProxy_eq hsize, ok_bind, layersDecode_eq, hexpected, ← hlength]
  exact times_layerDecode_iff hheader layers.activeCount

/-- A UDP datagram from one host to another. -/
def datagramProxy : QTunnelProxy where
  netProtocol := .IPv4
  transportProtocol := .UDP
  sourceAddr := ⟨[10, 0, 0, 2]⟩
  sourcePort := 1000
  dstAddr := ⟨[10, 0, 0, 3]⟩
  dstPort := 53
  protoData := .default

/-- Without an active layer the headers are missing; with two of them the packet-builder header
that is left in front is cut away, and the headers of the first layer stay. -/
theorem layerStacks_not_inverted :
    ¬ LayersInvert [⟨false⟩] ⟨7, 0, 1⟩ datagramProxy [42] ∧
    ¬ LayersInvert [⟨true⟩, ⟨true⟩] ⟨7, 0, 1⟩ datagramProxy [42] ∧
    ¬ ∀ layers pb proxy payload, LayersInvert layers pb proxy payload := by
  have hnone : ¬ LayersInvert [⟨false⟩] ⟨7, 0, 1⟩ datagramProxy [42] := by
    rintro ⟨size, hsize, h⟩
    cases Except.ok.inj hsize
    revert h
    decide +kernel
  have htwo : ¬ LayersInvert [⟨true⟩, ⟨true⟩] ⟨7, 0, 1⟩ datagramProxy [42] := by
    rintro ⟨size, hsize, h⟩
    cases Except.ok.inj hsize
    revert h
    decide +kernel
  exact ⟨hnone, htwo, fun h => hnone (h _ _ _ _)⟩

end QVPN
