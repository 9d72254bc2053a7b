import QVPN.Structures.Record
import QVPN.Lib.Fragments

/-!
# The packet manager

Fragments are collected in one builder for each packet id. A fragment is inserted where the
code finds its offset in the bytes collected so far, and the search compares byte values with
the offset, exactly as `std::find` over the buffer does. A builder becomes full when its size
equals the size announced by the fragment that started it.

The iteration order of the unordered map of builders is unspecified, so it is a field of the
manager: statements about all managers are statements about all orders.
-/

namespace QVPN

open BigEndian Memory

/-- The bytes collected for one packet. -/
structure PacketBuilder where
  originalSize : UShort
  data : List UByte
  isFull : Bool
  deriving DecidableEq, Repr

namespace PacketBuilder

/-- A builder that was never given data. -/
def default : PacketBuilder := ⟨0, [], false⟩

/-- The position of the first byte whose value is the offset, or the end of the data. -/
def find (data : List UByte) (offset : UShort) : ℕ :=
  data.findIdx fun b => b.toNat = offset.toNat

/-- Insert a fragment's bytes at the found position; `offset` and `body` are its content. -/
def addData (pb : PacketBuilder) (offset : UShort) (body : List UByte) : PacketBuilder :=
  let pos := find pb.data offset
  let data := pb.data.take pos ++ body ++ pb.data.drop pos
  ⟨pb.originalSize, data, pb.isFull || data.length == pb.originalSize.toNat⟩

/-- A builder is made from the first fragment that arrives, whatever its offset. -/
def ofFragment (offset origSize : UShort) (body : List UByte) : PacketBuilder :=
  addData ⟨origSize, [], false⟩ offset body

/-- The offset search over no data stops at once. -/
@[simp] theorem find_nil (offset : UShort) : find [] offset = 0 := rfl

@[simp] theorem addData_originalSize (pb : PacketBuilder) (offset : UShort) (body : List UByte) :
    (pb.addData offset body).originalSize = pb.originalSize := rfl

/-- Wherever a fragment lands, the data holds exactly its bytes in addition. -/
theorem addData_perm (pb : PacketBuilder) (offset : UShort) (body : List UByte) :
    (pb.addData offset body).data.Perm (pb.data ++ body) := by
  have hcut := List.take_append_drop (find pb.data offset) pb.data
  change (pb.data.take (find pb.data offset) ++ body ++ pb.data.drop (find pb.data offset)).Perm _
  conv_rhs => rw [← hcut]
  rw [List.append_assoc, List.append_assoc]
  exact List.Perm.append_left _ List.perm_append_comm

/-- A fragment whose search stops at its own place leaves the data gathered. -/
theorem addData_gather (size : UShort) {offset : UShort} (full : Bool) {parts : List (List UByte)}
    {D : ℕ → Bool} {i : ℕ} (hi : i < parts.length) (hD : D i = false)
    (hfind : find (Fragments.gather parts D) offset = Fragments.place parts D i) :
    addData ⟨size, Fragments.gather parts D, full⟩ offset parts[i] =
      ⟨size, Fragments.gather parts (Function.update D i true), full ||
        (Fragments.gather parts (Function.update D i true)).length == size.toNat⟩ := by
  simp only [addData, hfind, Fragments.gather_update hi hD]

/-- An offset above every byte value is found only at the end. -/
theorem find_of_ge {offset : UShort} (h : 256 ≤ offset.toNat) (data : List UByte) :
    find data offset = data.length := by
  rw [find, List.findIdx_eq_length]
  intro b _
  have := b.toNat_lt
  simp only [decide_eq_false_iff_not]
  omega

/-- Move assignment keeps the target when both hold the same data. -/
def moveAssign (self pb : PacketBuilder) : PacketBuilder := if self.data = pb.data then self else pb

/-- Either way the target holds the data that was assigned. -/
@[simp] theorem moveAssign_data (self pb : PacketBuilder) : (self.moveAssign pb).data = pb.data := by
  rw [moveAssign]
  split
  · assumption
  · rfl

end PacketBuilder

/-- An iteration order visits every possible key. -/
structure IterationOrder where
  ids : List UByte
  complete : ∀ id, id ∈ ids

/-- The increasing order of keys. -/
def IterationOrder.increasing : IterationOrder where
  ids := (List.range 256).map UInt8.ofNat
  complete id := List.mem_map.mpr ⟨id.toNat, by simpa using id.toNat_lt, by simp⟩

/-- The builders by packet id, the cached full packet and the split configuration. -/
structure QVPNPacketManager where
  packets : UByte → Option PacketBuilder
  order : IterationOrder
  cached : Option UByte
  lastPacketId : UByte
  dataMaxSize : UInt
  dataSplitSize : UShort

inductive PacketBuilderSignal where
  | PACKET_FULL_BUILD
  | PACKET_PART_RECEIVED
  | PACKET_NO_BUILDER_DATA
  deriving DecidableEq, Repr

namespace QVPNPacketManager

def dataMetaQvpnSize : UShort := 5 + 5 + 40 + 256

theorem dataMetaQvpnSize_toNat : dataMetaQvpnSize.toNat = 306 := rfl

/-- A manager as it is constructed: no builders and the default sizes. -/
def initial (order : IterationOrder) : QVPNPacketManager where
  packets := fun _ => none
  order := order
  cached := none
  lastPacketId := 0
  dataMaxSize := 65535 - dataMetaQvpnSize.toUInt32
  dataSplitSize := ((65535 - dataMetaQvpnSize.toUInt32) / 2 + 1).toUInt16

def setDataMaxSize (m : QVPNPacketManager) (size : UInt) : QVPNPacketManager :=
  if size > 65535 - dataMetaQvpnSize.toUInt32 then m
  else { m with dataMaxSize := size - dataMetaQvpnSize.toUInt32 }

def setDataSplitSize (m : QVPNPacketManager) (size : UShort) : QVPNPacketManager :=
  if size.toUInt32 > m.dataMaxSize then m else { m with dataSplitSize := size }

/-- Take a fragment: five header bytes and at least one byte behind them. -/
def buildPacket (m : QVPNPacketManager) :
    List UByte → PacketBuilderSignal × QVPNPacketManager
  | id :: o1 :: o0 :: s1 :: s0 :: b :: rest =>
    let body := b :: rest
    let offset := join o1 o0
    let originalSize := join s1 s0
    -- a corrupted packet, or not ours
    if offset.toNat ≥ originalSize.toNat ∨ body.length + offset.toNat > originalSize.toNat then
      (.PACKET_NO_BUILDER_DATA, m)
    else
      match m.packets id with
      | some pb =>
        (.PACKET_PART_RECEIVED,
          { m with packets := Function.update m.packets id (some (pb.addData offset body)) })
      | none =>
        (if body.length = originalSize.toNat then .PACKET_FULL_BUILD else .PACKET_PART_RECEIVED,
          { m with
            packets := Function.update m.packets id
              (some (.ofFragment offset originalSize body)) })
  | _ => (.PACKET_NO_BUILDER_DATA, m)

/-- Whether a key holds a full builder. -/
def fullAt (m : QVPNPacketManager) (id : UByte) : Bool := (m.packets id).any (·.isFull)

/-- Changing the builder of one id changes what is full there. -/
theorem fullAt_update (m : QVPNPacketManager) (id other : UByte) (pb : Option PacketBuilder) :
    fullAt { m with packets := Function.update m.packets id pb } other =
      if other = id then pb.any (·.isFull) else m.fullAt other := by
  by_cases hother : other = id
  · simp [fullAt, hother]
  · simp [fullAt, hother]

/-- Look for the first full builder in iteration order and remember it. -/
def haveFullPackets (m : QVPNPacketManager) : Bool × QVPNPacketManager :=
  match m.order.ids.find? m.fullAt with
  | some id => (true, { m with cached := some id })
  | none => (false, m)

/-- Erase the remembered builder. -/
def popLastPacket (m : QVPNPacketManager) : QVPNPacketManager :=
  match m.cached with
  | none => m
  | some id => { m with packets := Function.update m.packets id none, cached := none }

/-- Take the remembered builder out. Without one the loop erases while it iterates, which is
only harmless if there is nothing to erase. -/
def getAndPopPacket (m : QVPNPacketManager) : Except Fault (PacketBuilder × QVPNPacketManager) :=
  match m.cached with
  | some id =>
    match m.packets id with
    | some pb => .ok (PacketBuilder.default.moveAssign pb, m.popLastPacket)
    | none => .error .outOfBounds
  | none => if m.order.ids.any m.fullAt then .error .outOfBounds else .ok (.default, m)

/-- The bytes of the remembered builder. Without one the last full builder in iteration order is
shown, and the pointer stays null when there is none. -/
def getRawPacket (m : QVPNPacketManager) : Except Fault (List UByte) :=
  let packet := match m.cached with
    | some id => m.packets id
    | none => m.order.ids.foldl (fun packet id => if m.fullAt id then m.packets id else packet) none
  match packet with
  | some pb => .ok pb.data
  | none => .error .outOfBounds

/-- What the drivers do after every fragment: pop a full packet if there is one. -/
def popIfFull (m : QVPNPacketManager) :
    Except Fault (Option (List UByte) × QVPNPacketManager) :=
  match m.haveFullPackets with
  | (true, m') => do
    let (packet, m'') ← m'.getAndPopPacket
    return (some packet.data, m'')
  | (false, m') => .ok (none, m')

/-- No builder is full and nothing is remembered: the state between two deliveries. -/
structure Settled (m : QVPNPacketManager) : Prop where
  none_full : ∀ id, m.fullAt id = false
  not_cached : m.cached = none

/-- No builder at all. -/
def Empty (m : QVPNPacketManager) : Prop := ∀ id, m.packets id = none

theorem initial_empty (order : IterationOrder) : (initial order).Empty := fun _ => rfl

theorem initial_settled (order : IterationOrder) : (initial order).Settled := ⟨fun _ => rfl, rfl⟩

/-- A manager without builders and without a remembered packet is settled. -/
theorem Empty.settled {m : QVPNPacketManager} (h : m.Empty) (hc : m.cached = none) : m.Settled :=
  ⟨fun id => by rw [fullAt, h id]; rfl, hc⟩

/-- A fragment that its own header admits. -/
def Admitted (offset origSize : UShort) (body : List UByte) : Prop :=
  body ≠ [] ∧ body.length + offset.toNat ≤ origSize.toNat

/-- An admitted fragment passes the guards. -/
theorem buildPacket_eq_of_admitted {m : QVPNPacketManager} {id : UByte} {offset origSize : UShort}
    {body : List UByte} (hadm : Admitted offset origSize body) :
    m.buildPacket (PacketBuilderData.bytes ⟨id, offset, origSize⟩ ++ body) =
      match m.packets id with
      | some pb =>
        (.PACKET_PART_RECEIVED,
          { m with packets := Function.update m.packets id (some (pb.addData offset body)) })
      | none =>
        (if body.length = origSize.toNat then .PACKET_FULL_BUILD else .PACKET_PART_RECEIVED,
          { m with
            packets := Function.update m.packets id (some (.ofFragment offset origSize body)) }) := by
  obtain ⟨hne, hle⟩ := hadm
  cases body with
  | nil => exact absurd rfl hne
  | cons b rest =>
    have hguard : ¬ (offset.toNat ≥ origSize.toNat ∨
        (b :: rest).length + offset.toNat > origSize.toNat) := by
      simp only [List.length_cons] at hle ⊢
      omega
    simp only [PacketBuilderData.bytes, bytes16, List.cons_append, List.nil_append, buildPacket,
      join_hi_lo, if_neg hguard]

/-- An admitted fragment of a new packet starts a builder. -/
theorem buildPacket_new {m : QVPNPacketManager} {id : UByte} {offset origSize : UShort}
    {body : List UByte} (hadm : Admitted offset origSize body) (hid : m.packets id = none) :
    (m.buildPacket (PacketBuilderData.bytes ⟨id, offset, origSize⟩ ++ body)).2 =
      { m with packets := Function.update m.packets id (some (.ofFragment offset origSize body)) } := by
  rw [buildPacket_eq_of_admitted hadm, hid]

/-- An admitted fragment of a packet with a builder is added to it. -/
theorem buildPacket_add {m : QVPNPacketManager} {id : UByte} {offset origSize : UShort}
    {body : List UByte} {pb : PacketBuilder} (hadm : Admitted offset origSize body)
    (hid : m.packets id = some pb) :
    (m.buildPacket (PacketBuilderData.bytes ⟨id, offset, origSize⟩ ++ body)).2 =
      { m with packets := Function.update m.packets id (some (pb.addData offset body)) } := by
  rw [buildPacket_eq_of_admitted hadm, hid]

/-- A fragment that its own header does not admit is refused. -/
theorem buildPacket_refused {m : QVPNPacketManager} {id : UByte} {offset origSize : UShort}
    {body : List UByte} (hadm : ¬ Admitted offset origSize body) :
    m.buildPacket (PacketBuilderData.bytes ⟨id, offset, origSize⟩ ++ body) =
      (.PACKET_NO_BUILDER_DATA, m) := by
  cases body with
  | nil => rfl
  | cons b rest =>
    have hguard : offset.toNat ≥ origSize.toNat ∨
        (b :: rest).length + offset.toNat > origSize.toNat := by
      by_contra hnone
      exact hadm ⟨List.cons_ne_nil _ _, by omega⟩
    simp only [PacketBuilderData.bytes, bytes16, List.cons_append, List.nil_append, buildPacket,
      join_hi_lo, if_pos hguard]

/-- What an admitted fragment is answered with: only a new packet is ever reported as built. -/
theorem buildPacket_admitted_fst {m : QVPNPacketManager} {id : UByte} {offset origSize : UShort}
    {body : List UByte} (hadm : Admitted offset origSize body) :
    (m.buildPacket (PacketBuilderData.bytes ⟨id, offset, origSize⟩ ++ body)).1 =
      if m.packets id = none ∧ body.length = origSize.toNat then .PACKET_FULL_BUILD
      else .PACKET_PART_RECEIVED := by
  rw [buildPacket_eq_of_admitted hadm]
  cases m.packets id with
  | none => simp only [true_and]
  | some pb => rfl

/-- Every message is either refused or carries an admitted fragment. -/
theorem buildPacket_refused_or (m : QVPNPacketManager) (message : List UByte) :
    m.buildPacket message = (.PACKET_NO_BUILDER_DATA, m) ∨ ∃ id offset origSize body,
      message = PacketBuilderData.bytes ⟨id, offset, origSize⟩ ++ body ∧
        Admitted offset origSize body := by
  match message with
  | [] | [_] | [_, _] | [_, _, _] | [_, _, _, _] | [_, _, _, _, _] => exact Or.inl rfl
  | id :: o1 :: o0 :: s1 :: s0 :: b :: rest =>
    have hmessage : id :: o1 :: o0 :: s1 :: s0 :: b :: rest =
        PacketBuilderData.bytes ⟨id, join o1 o0, join s1 s0⟩ ++ b :: rest := by
      simp [PacketBuilderData.bytes, bytes16, hi_join, lo_join]
    by_cases hadm : Admitted (join o1 o0) (join s1 s0) (b :: rest)
    · exact Or.inr ⟨id, _, _, b :: rest, hmessage, hadm⟩
    · rw [hmessage]
      exact Or.inl (buildPacket_refused hadm)

/-- Every message either changes nothing or carries an admitted fragment. -/
theorem buildPacket_cases (m : QVPNPacketManager) (message : List UByte) :
    (m.buildPacket message).2 = m ∨ ∃ id offset origSize body,
      message = PacketBuilderData.bytes ⟨id, offset, origSize⟩ ++ body ∧
        Admitted offset origSize body := by
  apply (buildPacket_refused_or m message).imp_left
  intro hrefused
  rw [hrefused]

/-- An admitted fragment adds its bytes to what is held under its id. -/
theorem buildPacket_admitted (m : QVPNPacketManager) (id : UByte) {offset origSize : UShort}
    {body : List UByte} (hadm : Admitted offset origSize body) :
    ∃ pb, (m.buildPacket (PacketBuilderData.bytes ⟨id, offset, origSize⟩ ++ body)).2 =
        { m with packets := Function.update m.packets id (some pb) } ∧
      pb.data.length = ((m.packets id).elim 0 fun pb => pb.data.length) + body.length := by
  cases hid : m.packets id with
  | none =>
    have hlen := (PacketBuilder.addData_perm ⟨origSize, [], false⟩ offset body).length_eq
    rw [List.nil_append] at hlen
    exact ⟨_, buildPacket_new hadm hid, by simpa [PacketBuilder.ofFragment] using hlen⟩
  | some pb =>
    have hlen := (PacketBuilder.addData_perm pb offset body).length_eq
    rw [List.length_append] at hlen
    exact ⟨_, buildPacket_add hadm hid, hlen⟩

/-- A fragment touches the builder of its own packet only. -/
theorem buildPacket_other {m : QVPNPacketManager} {id other : UByte} {offset origSize : UShort}
    {body : List UByte} (hadm : Admitted offset origSize body) (hother : other ≠ id) :
    (m.buildPacket (PacketBuilderData.bytes ⟨id, offset, origSize⟩ ++ body)).2.packets other =
      m.packets other := by
  cases hid : m.packets id with
  | none =>
    rw [buildPacket_new hadm hid]
    exact Function.update_of_ne hother _ _
  | some pb =>
    rw [buildPacket_add hadm hid]
    exact Function.update_of_ne hother _ _

/-- The search for a full builder finds one exactly when there is one. -/
theorem haveFullPackets_fst (m : QVPNPacketManager) :
    m.haveFullPackets.1 = true ↔ ∃ id, m.fullAt id = true := by
  unfold haveFullPackets
  cases hfind : m.order.ids.find? m.fullAt with
  | some id => simpa using ⟨id, List.find?_some hfind⟩
  | none =>
    simp only [Bool.false_eq_true, false_iff, not_exists]
    exact fun id => List.find?_eq_none.mp hfind id (m.order.complete id)

/-- Where the search finds nothing, nothing is popped. -/
theorem popIfFull_of_find_none {m : QVPNPacketManager}
    (hfind : m.order.ids.find? m.fullAt = none) : m.popIfFull = .ok (none, m) := by
  simp only [popIfFull, haveFullPackets, hfind]

/-- What the search finds is a full builder. Its data is popped, and its key is free again. -/
theorem popIfFull_of_find {m : QVPNPacketManager} {id : UByte}
    (hfind : m.order.ids.find? m.fullAt = some id) :
    ∃ pb, m.packets id = some pb ∧ pb.isFull = true ∧ m.popIfFull = .ok (some pb.data,
      { m with packets := Function.update m.packets id none, cached := none }) := by
  have hfull := List.find?_some hfind
  cases hid : m.packets id with
  | none => simp [fullAt, hid] at hfull
  | some pb =>
    refine ⟨pb, rfl, by simpa [fullAt, hid] using hfull, ?_⟩
    simp only [popIfFull, haveFullPackets, hfind, getAndPopPacket, hid, popLastPacket, ok_bind,
      PacketBuilder.moveAssign_data]
    rfl

/-- Between deliveries nothing is popped. -/
theorem popIfFull_of_none {m : QVPNPacketManager} (h : ∀ id, m.fullAt id = false) :
    m.popIfFull = .ok (none, m) :=
  popIfFull_of_find_none (List.find?_eq_none.mpr fun id _ => by simp [h id])

/-- With one full builder, its data is popped and its key is free again. -/
theorem popIfFull_of_full {m : QVPNPacketManager} {id : UByte} {pb : PacketBuilder}
    (hid : m.packets id = some pb) (hfull : pb.isFull = true)
    (hother : ∀ other, other ≠ id → m.fullAt other = false) :
    m.popIfFull = .ok (some pb.data,
      { m with packets := Function.update m.packets id none, cached := none }) := by
  have hat : m.fullAt id = true := by rw [fullAt, hid]; exact hfull
  cases hfind : m.order.ids.find? m.fullAt with
  | none => exact absurd hat (List.find?_eq_none.mp hfind id (m.order.complete id))
  | some found =>
    have hsame : found = id := by
      by_contra hne
      have hnone := hother found hne
      rw [List.find?_some hfind] at hnone
      exact absurd hnone (by decide)
    rw [hsame] at hfind
    obtain ⟨pb', hpb', -, hpop⟩ := popIfFull_of_find hfind
    cases hid.symm.trans hpb'
    exact hpop

/-- What was popped was a full builder, whose key is free again. -/
theorem popIfFull_cases {m m' : QVPNPacketManager} {packet : Option (List UByte)}
    (h : m.popIfFull = .ok (packet, m')) :
    packet = none ∧ m' = m ∨ ∃ id pb, m.haveFullPackets.2.cached = some id ∧
      m.packets id = some pb ∧ pb.isFull = true ∧ packet = some pb.data ∧
      m' = { m with packets := Function.update m.packets id none, cached := none } := by
  cases hfind : m.order.ids.find? m.fullAt with
  | none =>
    cases Except.ok.inj (h.symm.trans (popIfFull_of_find_none hfind))
    exact Or.inl ⟨rfl, rfl⟩
  | some id =>
    obtain ⟨pb, hid, hfull, hpop⟩ := popIfFull_of_find hfind
    cases Except.ok.inj (h.symm.trans hpop)
    exact Or.inr ⟨id, pb, by rw [haveFullPackets, hfind], hid, hfull, rfl, rfl⟩

end QVPNPacketManager

end QVPN
