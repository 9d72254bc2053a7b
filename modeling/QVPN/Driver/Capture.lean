import QVPN.Driver.Codec

/-!
# The client's inbound path

The client does not receive from its tunnel socket. It captures the TCP segments that arrive
from the server and decodes the payload of each as one record. The server encodes every
response on its own and sends the records over the stream.
-/

namespace QVPN

open Memory QVPNLayersSettings QVPNPacketManager

/-- Decode the payloads of captured segments; a segment without payload is reinjected as it is. -/
def incomingCaptureLoop (m : QVPNPacketManager) :
    List (List UByte) → Except Fault (List QTunnelData × QVPNPacketManager)
  | [] => .ok ([], m)
  | payload :: payloads =>
    if payload.length = 0 then incomingCaptureLoop m payloads
    else do
      let (packet, m) ← decodeData defaultLayers m payload
      let (packets, m) ← incomingCaptureLoop m payloads
      return (packet.toList ++ packets, m)

/-- The records of the responses of one connection. Other connections take ids from the same
manager, so each response has any id. -/
def encodeResponses (m : QVPNPacketManager) :
    List (UByte × QTunnelData) → Except Fault (List (List UByte))
  | [] => .ok []
  | (id, packet) :: responses => do
    let (split, _) ← encodeData defaultLayers { m with lastPacketId := id } packet.toQTunnelProxy
      packet.data
    let records ← split.records
    let later ← encodeResponses m responses
    return records ++ later

/-- The encoded responses are the records of the packets. -/
theorem encodeResponses_eq {m : QVPNPacketManager} (hm : m.DefaultConfig)
    {responses : List (UByte × QTunnelData)} (hsend : ∀ e ∈ responses, e.2.Sendable) :
    encodeResponses m responses = .ok (recordsOf responses) := by
  induction responses with
  | nil => rfl
  | cons e responses ih =>
    obtain ⟨id, packet⟩ := e
    have hpacket := hsend (id, packet) (by simp)
    have hconfig : DefaultConfig { m with lastPacketId := id } := ⟨hm.max_size, hm.split_size⟩
    obtain ⟨split, hencode, hrecords⟩ := encodeData_records hconfig hpacket.valid hpacket.size
    rw [encodeResponses, hencode, ok_bind]
    dsimp only
    rw [hrecords, ok_bind, ih fun e he => hsend e (List.mem_cons_of_mem _ he), recordsOf_cons]
    rfl

/-- A packet as it is captured. -/
structure QTunnelData.Capturable (packet : QTunnelData) : Prop where
  addrs : packet.AddrsMatch
  proto : packet.protoData.Collected
  size : packet.data.length ≤ 65535

/-- What the tunnel keeps of a packet. -/
def QTunnelData.kept (packet : QTunnelData) : QTunnelData := { packet with data := QVPN.kept packet.data }

theorem QTunnelData.Capturable.sendable {packet : QTunnelData} (h : packet.Capturable) :
    packet.kept.Sendable :=
  ⟨h.addrs, h.proto, lossless_kept h.size⟩

theorem QTunnelData.Sendable.capturable {packet : QTunnelData} (h : packet.Sendable) :
    packet.Capturable where
  addrs := h.addrs
  proto := h.proto
  size := by
    have hsize := h.size
    rw [Lossless] at hsize
    omega

/-- A packet is kept whole exactly if its split loses nothing. -/
theorem QTunnelData.Capturable.kept_eq_iff {packet : QTunnelData} (h : packet.Capturable) :
    packet.kept = packet ↔ Lossless packet.data := by
  rw [← QVPN.kept_eq_iff h.size]
  constructor
  · intro heq
    exact congrArg QTunnelData.data heq
  · intro heq
    rw [QTunnelData.kept, heq]

/-- What is kept of a packet is not longer than the packet. -/
theorem QTunnelData.encode_kept_length_le (packet : QTunnelData) :
    (packet.kept.encode packet.kept.data).length ≤ (packet.encode packet.data).length := by
  have hle := kept_length_le packet.data
  rw [QTunnelProxy.encode_length, packet.encode_length]
  exact Nat.add_le_add_left hle _

/-- A packet of which as many bytes are kept as it has is kept whole. -/
theorem QTunnelData.kept_eq_of_encode_length {packet : QTunnelData}
    (h : (packet.encode packet.data).length ≤ (packet.kept.encode packet.kept.data).length) :
    packet.kept = packet := by
  rw [QTunnelProxy.encode_length, packet.kept.encode_length] at h
  have hdata : QVPN.kept packet.data = packet.data := kept_eq_of_length (Nat.le_of_add_le_add_left h)
  rw [QTunnelData.kept, hdata]

/-- The encoded responses are those of what is kept of the packets. -/
theorem encodeResponses_kept {m : QVPNPacketManager} (hm : m.DefaultConfig)
    {responses : List (UByte × QTunnelData)} (hsize : ∀ e ∈ responses, e.2.data.length ≤ 65535) :
    encodeResponses m responses =
      encodeResponses m (responses.map fun e => (e.1, e.2.kept)) := by
  induction responses with
  | nil => rfl
  | cons e responses ih =>
    obtain ⟨id, packet⟩ := e
    have hconfig : DefaultConfig { m with lastPacketId := id } := ⟨hm.max_size, hm.split_size⟩
    rw [List.map_cons, encodeResponses, encodeResponses,
      encodeData_kept defaultLayers hconfig _ (hsize (id, packet) (List.mem_cons_self ..)),
      ih fun e he => hsize e (List.mem_cons_of_mem _ he)]
    rfl

/-- Segments without payload play no role. -/
theorem incomingCaptureLoop_filter (m : QVPNPacketManager) (payloads : List (List UByte)) :
    incomingCaptureLoop m (payloads.filter fun payload => payload.length ≠ 0) =
      incomingCaptureLoop m payloads := by
  induction payloads generalizing m with
  | nil => rfl
  | cons payload payloads ih =>
    by_cases hempty : payload.length = 0
    · rw [List.filter_cons_of_neg (by simpa using hempty), ih, incomingCaptureLoop, if_pos hempty]
    · rw [List.filter_cons_of_pos (by simpa using hempty), incomingCaptureLoop, incomingCaptureLoop,
        if_neg hempty, if_neg hempty]
      congr 1
      funext result
      obtain ⟨packet, m⟩ := result
      dsimp only
      rw [ih]

/-- A segment with payload is decoded before the segments behind it. -/
theorem incomingCaptureLoop_cons {m m' : QVPNPacketManager} {payload : List UByte}
    {payloads : List (List UByte)} {packet : Option QTunnelData} (hne : payload ≠ [])
    (hdecode : decodeData defaultLayers m payload = .ok (packet, m')) :
    incomingCaptureLoop m (payload :: payloads) = (do
      let (packets, m) ← incomingCaptureLoop m' payloads
      return (packet.toList ++ packets, m)) := by
  rw [incomingCaptureLoop, if_neg (by simpa using hne), hdecode]
  rfl

/-- Fed record by record, the loop returns the packets and keeps no builder. -/
theorem incomingCaptureLoop_recordsOf {m : QVPNPacketManager} (hm : m.Empty)
    (hcached : m.cached = none) {responses : List (UByte × QTunnelData)}
    (hsend : ∀ e ∈ responses, e.2.Sendable) :
    incomingCaptureLoop m (recordsOf responses) = .ok (responses.map Prod.snd, m) := by
  induction responses with
  | nil => rfl
  | cons e responses ih =>
    obtain ⟨id, packet⟩ := e
    have hpacket := hsend (id, packet) (by simp)
    have hrest := ih fun e he => hsend e (List.mem_cons_of_mem _ he)
    have hsettled := hm.settled hcached
    rw [recordsOf_cons, packetRecords]
    dsimp only
    by_cases hsmall : packet.data.length < 65229
    · rw [if_pos hsmall, List.cons_append, List.nil_append, incomingCaptureLoop_cons
        (wholeRecord_ne_nil _ _ _) (decodeData_wholeRecord hpacket.valid hsmall hsettled (hm id)), hrest]
      rfl
    · have hlen := hpacket.size.resolve_left hsmall
      have hhalf : Settled { m with
          packets := Function.update m.packets id
            (some (firstBuilder packet.toQTunnelProxy packet.data)) } := by
        refine ⟨fun other => ?_, hcached⟩
        rw [fullAt_update]
        split
        · rfl
        · exact hsettled.none_full other
      have hback : Function.update m.packets id none = m.packets := by
        rw [← hm id, Function.update_eq_self]
      have hfirst := decodeData_firstRecord hpacket.valid hlen hsettled (hm id)
      have hsecond := decodeData_secondRecord hpacket.valid hlen hhalf
        (Function.update_self id _ m.packets)
      rw [if_neg hsmall, List.cons_append, List.cons_append, List.nil_append,
        incomingCaptureLoop_cons (firstRecord_ne_nil _ _ _) hfirst,
        incomingCaptureLoop_cons (secondRecord_ne_nil _ _) hsecond]
      dsimp only
      rw [Function.update_idem, hback, hrest]
      rfl

end QVPN
