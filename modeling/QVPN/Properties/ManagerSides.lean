import QVPN.Driver.Codec
import QVPN.Lib.Interleaving

/-!
# The two sides of a packet manager

A driver has one packet manager for both directions. Encoding a packet takes the next id and the
sizes of the split from it; decoding a record takes the builders and the cached packet. Neither
touches what the other one uses. A server encodes the responses of all its clients while their
request loops decode, and the threads take their turns in any order: what is encoded and what is
decoded is the same as if each side had a manager of its own.
-/

namespace QVPN

open Interleaving Memory QVPNPacketManager

/-- What encoding uses of a manager. -/
structure SendingSide where
  lastPacketId : UByte
  dataMaxSize : UInt
  dataSplitSize : UShort

/-- What decoding uses of a manager. -/
structure ReceivingSide where
  packets : UByte → Option PacketBuilder
  order : IterationOrder
  cached : Option UByte

namespace QVPNPacketManager

def sendingSide (m : QVPNPacketManager) : SendingSide :=
  ⟨m.lastPacketId, m.dataMaxSize, m.dataSplitSize⟩

def receivingSide (m : QVPNPacketManager) : ReceivingSide := ⟨m.packets, m.order, m.cached⟩

/-- A manager put together from two sides. -/
def ofSides (s : SendingSide) (r : ReceivingSide) : QVPNPacketManager :=
  ⟨r.packets, r.order, r.cached, s.lastPacketId, s.dataMaxSize, s.dataSplitSize⟩

@[simp] theorem sendingSide_ofSides (s : SendingSide) (r : ReceivingSide) :
    (ofSides s r).sendingSide = s := rfl

@[simp] theorem receivingSide_ofSides (s : SendingSide) (r : ReceivingSide) :
    (ofSides s r).receivingSide = r := rfl

/-- A manager is nothing but its two sides. -/
@[simp] theorem ofSides_sides (m : QVPNPacketManager) :
    ofSides m.sendingSide m.receivingSide = m := rfl

/-- Taking a fragment looks at the receiving side only, and changes only that. -/
theorem buildPacket_ofSides (r : ReceivingSide) (message : List UByte) : ∃ signal r',
    ∀ s, (ofSides s r).buildPacket message = (signal, ofSides s r') := by
  by_cases hadm : ∃ id offset origSize body,
      message = PacketBuilderData.bytes ⟨id, offset, origSize⟩ ++ body ∧
        Admitted offset origSize body
  · obtain ⟨id, offset, origSize, body, rfl, hadm⟩ := hadm
    cases hid : r.packets id with
    | some pb =>
      refine ⟨.PACKET_PART_RECEIVED, { r with
        packets := Function.update r.packets id (some (pb.addData offset body)) }, ?_⟩
      intro s
      have hpb : (ofSides s r).packets id = some pb := hid
      rw [buildPacket_eq_of_admitted hadm, hpb]
      rfl
    | none =>
      refine ⟨if body.length = origSize.toNat then .PACKET_FULL_BUILD else .PACKET_PART_RECEIVED,
        { r with packets :=
            Function.update r.packets id (some (.ofFragment offset origSize body)) }, ?_⟩
      intro s
      have hnone : (ofSides s r).packets id = none := hid
      rw [buildPacket_eq_of_admitted hadm, hnone]
      rfl
  · refine ⟨.PACKET_NO_BUILDER_DATA, r, ?_⟩
    intro s
    exact (buildPacket_refused_or (ofSides s r) message).resolve_right hadm

/-- Popping a full packet looks at the receiving side only, and changes only that. -/
theorem popIfFull_ofSides (r : ReceivingSide) : ∃ packet r',
    ∀ s, (ofSides s r).popIfFull = .ok (packet, ofSides s r') := by
  let full : UByte → Bool := fun id => (r.packets id).any (·.isFull)
  cases hfind : r.order.ids.find? full with
  | none => exact ⟨none, r, fun s => popIfFull_of_find_none hfind⟩
  | some id =>
    cases hid : r.packets id with
    | none =>
      have hfull : full id = true := List.find?_some hfind
      simp [full, hid] at hfull
    | some pb =>
      refine ⟨some pb.data, ⟨Function.update r.packets id none, r.order, none⟩, ?_⟩
      intro s
      obtain ⟨pb', hpb', -, hpop⟩ := popIfFull_of_find (m := ofSides s r) hfind
      cases hid.symm.trans hpb'
      exact hpop

end QVPNPacketManager

/-- The records of a payload that is split already. -/
def encodeView (layers : QVPNLayersSettings) (view : SplittedPacketView) (proxy : QTunnelProxy)
    (payload : List UByte) : Except Fault SplittedPacket := do
  let (pb, b, e) ← view.getRawWithPbData 0
  let part ← slice payload b e
  let first ← layers.layersEncodePbProxy pb proxy part
  let rest ← encodeLaterParts layers view payload
  return rest.foldl SplittedPacket.addData (SplittedPacket.empty.addData first)

/-- Decoding a record looks at the receiving side only, and changes only that. -/
theorem decodeData_ofSides (layers : QVPNLayersSettings) (r : ReceivingSide) (record : List UByte) :
    (∃ e, ∀ s, decodeData layers (ofSides s r) record = .error e) ∨
      ∃ packet r', ∀ s, decodeData layers (ofSides s r) record = .ok (packet, ofSides s r') := by
  cases hres : layers.layersDecode record with
  | error e => exact Or.inl ⟨e, fun s => by rw [decodeData, hres]; rfl⟩
  | ok res =>
    obtain ⟨signal, r₁, hbuild⟩ := buildPacket_ofSides r res
    obtain ⟨packet, r₂, hpop⟩ := popIfFull_ofSides r₁
    cases packet with
    | none =>
      refine Or.inr ⟨none, r₂, ?_⟩
      intro s
      rw [decodeData, hres, ok_bind, hbuild, hpop]
      rfl
    | some data =>
      cases hdata : QTunnelData.ofBytes data with
      | error e =>
        refine Or.inl ⟨e, ?_⟩
        intro s
        rw [decodeData, hres, ok_bind, hbuild, hpop, ok_bind]
        dsimp only
        rw [hdata]
        rfl
      | ok data =>
        refine Or.inr ⟨some data, r₂, ?_⟩
        intro s
        rw [decodeData, hres, ok_bind, hbuild, hpop, ok_bind]
        dsimp only
        rw [hdata]
        rfl

/-- Splitting a payload looks at the sending side only, and takes an id from it. -/
theorem splitPacketView_ofSides (s : SendingSide) (payload : List UByte) :
    (∃ e, ∀ r, (ofSides s r).splitPacketView payload = .error e) ∨
      ∃ view s', ∀ r, (ofSides s r).splitPacketView payload = .ok (view, ofSides s' r) := by
  cases hranges : (ofSides s ⟨fun _ => none, .increasing, none⟩).ranges payload.length with
  | error e =>
    refine Or.inl ⟨e, ?_⟩
    intro r
    have hsame : (ofSides s r).ranges payload.length = .error e := hranges
    rw [splitPacketView, hsame]
    rfl
  | ok ranges =>
    refine Or.inr ⟨ranges.foldl (fun view r => view.addData r.1 r.2) ⟨s.lastPacketId, none, 0, []⟩,
      { s with lastPacketId := s.lastPacketId + 1 }, ?_⟩
    intro r
    have hsame : (ofSides s r).ranges payload.length = .ok ranges := hranges
    rw [splitPacketView, hsame]
    rfl

/-- Encoding a packet looks at the sending side only, and changes only that. -/
theorem encodeData_ofSides (layers : QVPNLayersSettings) (s : SendingSide) (proxy : QTunnelProxy)
    (payload : List UByte) :
    (∃ e, ∀ r, encodeData layers (ofSides s r) proxy payload = .error e) ∨
      ∃ packet s', ∀ r, encodeData layers (ofSides s r) proxy payload =
        .ok (packet, ofSides s' r) := by
  obtain ⟨e, hsplit⟩ | ⟨view, s', hsplit⟩ := splitPacketView_ofSides s payload
  · refine Or.inl ⟨e, ?_⟩
    intro r
    rw [encodeData, hsplit]
    rfl
  · have hencode (r : ReceivingSide) : encodeData layers (ofSides s r) proxy payload =
        (fun packet => (packet, ofSides s' r)) <$> encodeView layers view proxy payload := by
      rw [encodeData, hsplit, ok_bind, encodeView]
      simp only [map_bind, map_pure]
    cases hview : encodeView layers view proxy payload with
    | error e => exact Or.inl ⟨e, fun r => by rw [hencode, hview]; rfl⟩
    | ok packet => exact Or.inr ⟨packet, s', fun r => by rw [hencode, hview]; rfl⟩

/-- What a driver asks of its manager. -/
inductive ManagerCall where
  | encode (proxy : QTunnelProxy) (payload : List UByte)
  | decode (record : List UByte)

/-- What it is answered. -/
inductive ManagerAnswer where
  | encoded (packet : SplittedPacket)
  | decoded (packet : Option QTunnelData)

inductive ManagerSide where
  | sending
  | receiving
  deriving DecidableEq, Repr

namespace QVPNPacketManager

/-- Answer one call. -/
def answer (layers : QVPNLayersSettings) (m : QVPNPacketManager) :
    ManagerCall → Except Fault (ManagerAnswer × QVPNPacketManager)
  | .encode proxy payload => do
    let (packet, m) ← encodeData layers m proxy payload
    return (.encoded packet, m)
  | .decode record => do
    let (packet, m) ← decodeData layers m record
    return (.decoded packet, m)

/-- The side that a call uses. -/
def side : ManagerCall → ManagerSide
  | .encode .. => .sending
  | .decode _ => .receiving

/-- The state of a side. -/
def SideState : ManagerSide → Type
  | .sending => SendingSide
  | .receiving => ReceivingSide

/-- A manager seen from one side. -/
def sideOf : ∀ i, QVPNPacketManager → SideState i
  | .sending => sendingSide
  | .receiving => receivingSide

/-- A manager with one side as it is constructed. -/
def withSide : ∀ i, SideState i → QVPNPacketManager
  | .sending, s => ofSides s (initial .increasing).receivingSide
  | .receiving, r => ofSides (initial .increasing).sendingSide r

/-- A side that answers by itself. -/
def answerOf (layers : QVPNLayersSettings) (i : ManagerSide) (s : SideState i)
    (call : ManagerCall) : Except Fault (ManagerAnswer × SideState i) :=
  (fun r => (r.1, sideOf i r.2)) <$> answer layers (withSide i s) call

/-- The two sides are independent components of a manager. -/
theorem independent_sides (layers : QVPNLayersSettings) :
    Independent side sideOf (answer layers) (answerOf layers) where
  own := by
    intro m call
    rw [← ofSides_sides m]
    cases call with
    | encode proxy payload =>
      obtain ⟨e, h⟩ | ⟨packet, s', h⟩ := encodeData_ofSides layers m.sendingSide proxy payload
      · simp only [answer, answerOf, side, sideOf, withSide, h, sendingSide_ofSides]
      · simp only [answer, answerOf, side, sideOf, withSide, h, sendingSide_ofSides]
        rfl
    | decode record =>
      obtain ⟨e, h⟩ | ⟨packet, r', h⟩ := decodeData_ofSides layers m.receivingSide record
      · simp only [answer, answerOf, side, sideOf, withSide, h, receivingSide_ofSides]
      · simp only [answer, answerOf, side, sideOf, withSide, h, receivingSide_ofSides]
        rfl
  others := by
    intro m call reply m' hstep i hi
    rw [← ofSides_sides m] at hstep ⊢
    cases call with
    | encode proxy payload =>
      obtain ⟨⟨packet, m₁⟩, hencode, hstep⟩ := bind_eq_ok_iff.mp hstep
      cases Except.ok.inj hstep
      obtain ⟨e, h⟩ | ⟨packet, s', h⟩ := encodeData_ofSides layers m.sendingSide proxy payload
      · cases hencode.symm.trans (h m.receivingSide)
      · cases hencode.symm.trans (h m.receivingSide)
        cases i with
        | sending => exact absurd rfl hi
        | receiving => rfl
    | decode record =>
      obtain ⟨⟨packet, m₁⟩, hdecode, hstep⟩ := bind_eq_ok_iff.mp hstep
      cases Except.ok.inj hstep
      obtain ⟨e, h⟩ | ⟨packet, r', h⟩ := decodeData_ofSides layers m.receivingSide record
      · cases hdecode.symm.trans (h m.sendingSide)
      · cases hdecode.symm.trans (h m.sendingSide)
        cases i with
        | sending => rfl
        | receiving => exact absurd rfl hi

/-- However encoding and decoding interleave on one manager: each side answers as if its calls were
the only ones, and the manager is put together from what the two sides come to. Some call faults
exactly when one of the sides faults by itself. -/
theorem answer_interleaved (layers : QVPNLayersSettings) (m : QVPNPacketManager)
    (calls : List ManagerCall) :
    (∀ answers m', run (answer layers) m calls = .ok (answers, m') →
      (run (answer layers) m (actionsOf side .sending calls) =
        .ok (answersOf side .sending calls answers, ofSides m'.sendingSide m.receivingSide)) ∧
      run (answer layers) m (actionsOf side .receiving calls) =
        .ok (answersOf side .receiving calls answers, ofSides m.sendingSide m'.receivingSide)) ∧
    ((∃ r, run (answer layers) m calls = .ok r) ↔
      (∃ r, run (answer layers) m (actionsOf side .sending calls) = .ok r) ∧
        ∃ r, run (answer layers) m (actionsOf side .receiving calls) = .ok r) := by
  have hsides := independent_sides layers
  refine ⟨?_, ?_⟩
  · intro answers m' hrun
    obtain ⟨t, hsending, hself, hother⟩ := hsides.run_alone hrun .sending
    obtain ⟨u, hreceiving, hself', hother'⟩ := hsides.run_alone hrun .receiving
    have ht : t = ofSides m'.sendingSide m.receivingSide := by
      rw [← ofSides_sides t]
      exact congrArg₂ ofSides hself (hother .receiving (by decide))
    have hu : u = ofSides m.sendingSide m'.receivingSide := by
      rw [← ofSides_sides u]
      exact congrArg₂ ofSides (hother' .sending (by decide)) hself'
    rw [← ht, ← hu]
    exact ⟨hsending, hreceiving⟩
  · rw [hsides.run_iff_alone m calls]
    constructor
    · intro h
      exact ⟨h .sending, h .receiving⟩
    · rintro ⟨hsending, hreceiving⟩ i
      cases i with
      | sending => exact hsending
      | receiving => exact hreceiving

end QVPNPacketManager

end QVPN
