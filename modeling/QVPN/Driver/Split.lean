import QVPN.Driver.PacketManager

/-!
# Splitting a payload

A payload is split into ranges of one buffer. Pointers are positions relative to the start of
the payload, and may leave it: the split adds whatever its arithmetic yields, and only a
later read of a range checks it. Sizes and separators wrap where their types do.
-/

namespace QVPN

open Memory

/-- Ranges of one payload, by their distance from the first one added. -/
structure SplittedPacketView where
  packetId : UByte
  data : Option ℤ
  dataSize : UShort
  separators : List (ℕ × ℤ)
  deriving DecidableEq, Repr

namespace SplittedPacketView

/-- The first range fixes the start; the size accumulates in sixteen bits. -/
def addData (s : SplittedPacketView) (b e : ℤ) : SplittedPacketView where
  packetId := s.packetId
  data := some (s.data.getD b)
  dataSize := s.dataSize + UInt16.ofInt (e - b)
  separators := s.separators ++ [(s.dataSize.toNat, s.dataSize.toNat + (e - b))]

def size (s : SplittedPacketView) : ℕ := s.separators.length

/-- The builder header and the range of a part; the null pointer is never added to. -/
def getRawWithPbData (s : SplittedPacketView) (i : ℕ) :
    Except Fault (PacketBuilderData × ℤ × ℤ) := do
  let (b, e) ← readAt s.separators i
  match s.data with
  | none => .error .outOfBounds
  | some data => return (⟨s.packetId, UInt16.ofNat b, s.dataSize⟩, data + b, data + e)

/-- The range of a part. -/
def getRawPacket (s : SplittedPacketView) (i : ℕ) : Except Fault (ℤ × ℤ) := do
  let (b, e) ← readAt s.separators i
  match s.data with
  | none => .error .outOfBounds
  | some data => return (data + b, data + e)

/-- The builder header and the bytes of a part, copied from the memory its range is in. -/
def get (s : SplittedPacketView) (mem : List UByte) (i : ℕ) : Except Fault (List UByte) := do
  let (b, e) ← readAt s.separators i
  match s.data with
  | none => .error .outOfBounds
  | some data => do
    let body ← slice mem (data + b) (data + e)
    return PacketBuilderData.bytes ⟨s.packetId, UInt16.ofNat b, s.dataSize⟩ ++ body

end SplittedPacketView

/-- Parts held by value, addressed by 16-bit separators. -/
structure SplittedPacket where
  packetId : UByte
  data : List UByte
  separators : List (UShort × UShort)
  deriving DecidableEq, Repr

namespace SplittedPacket

def empty : SplittedPacket := ⟨0, [], []⟩

def addData (s : SplittedPacket) (range : List UByte) : SplittedPacket where
  packetId := s.packetId
  data := s.data ++ range
  separators := s.separators ++
    [(UInt16.ofNat s.data.length, UInt16.ofNat (s.data.length + range.length))]

def size (s : SplittedPacket) : ℕ := s.separators.length

def getRawPacket (s : SplittedPacket) (i : ℕ) : Except Fault (List UByte) := do
  let (b, e) ← readAt s.separators i
  slice s.data b.toNat e.toNat

/-- The builder header and the bytes of a part. -/
def get (s : SplittedPacket) (i : ℕ) : Except Fault (List UByte) := do
  let (b, e) ← readAt s.separators i
  let body ← slice s.data b.toNat e.toNat
  return PacketBuilderData.bytes ⟨s.packetId, b, UInt16.ofNat s.data.length⟩ ++ body

end SplittedPacket

namespace QVPNPacketManager

/-- The ranges of the split loop from iteration `i` on, for `count` more iterations. -/
def splitRanges (stop split : ℤ) : ℕ → ℕ → ℤ → ℤ → List (ℤ × ℤ)
  | 0, _, _, _ => []
  | count + 1, i, startSplit, endSplit =>
    let startSplit := startSplit + i * split
    let endSplit := if stop < endSplit then stop else startSplit + split
    (startSplit, endSplit) :: splitRanges stop split count (i + 1) startSplit endSplit

/-- The ranges a payload of a given size is split into. -/
def ranges (m : QVPNPacketManager) (size : ℕ) : Except Fault (List (ℤ × ℤ)) :=
  if size ≥ m.dataMaxSize.toNat then
    if m.dataSplitSize.toNat = 0 then .error .divisionByZero
    else
      let pCount := UInt8.ofNat (size / m.dataSplitSize.toNat)
      .ok (splitRanges size m.dataSplitSize.toNat pCount.toNat 0 0 m.dataSplitSize.toNat)
  else
    .ok [(0, (size : ℤ))]

/-- The next packet id, which wraps. -/
def nextPacketId (m : QVPNPacketManager) : QVPNPacketManager :=
  { m with lastPacketId := m.lastPacketId + 1 }

/-- Split a payload in place. -/
def splitPacketView (m : QVPNPacketManager) (payload : List UByte) :
    Except Fault (SplittedPacketView × QVPNPacketManager) := do
  let ranges ← m.ranges payload.length
  return (ranges.foldl (fun s r => s.addData r.1 r.2) ⟨m.lastPacketId, none, 0, []⟩,
    m.nextPacketId)

/-- Split a payload by copying. -/
def splitPacket (m : QVPNPacketManager) (payload : List UByte) :
    Except Fault (SplittedPacket × QVPNPacketManager) := do
  let ranges ← m.ranges payload.length
  let parts ← ranges.mapM fun r => slice payload r.1 r.2
  return (parts.foldl SplittedPacket.addData ⟨m.lastPacketId, [], []⟩, m.nextPacketId)

end QVPNPacketManager

end QVPN
