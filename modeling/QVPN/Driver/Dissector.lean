import QVPN.Lib.Memory
import QVPN.Structures.Types

/-!
# The dissector for the packet analyzer

A script shows the records of a captured segment in the packet analyzer. It reads the fields that
the drivers write in front of a payload, each at its own position, and follows the lengths of the
records from one to the next. What it does not know is where the content of a record ends: every
part sees the rest of the segment.
-/

namespace QVPN

open Memory

namespace WireShark

/-- What the script relies on of the analyzer, whose code is not here: `buffer(offset, length)`, and
`buffer(offset):tvb()`. -/
structure Analyzer where
  range : List UByte → ℕ → ℤ → Except Fault (List UByte)
  rest : List UByte → ℕ → Except Fault (List UByte)

/-- Ranges inside of a buffer are its bytes, and so is the rest behind a position inside of it. -/
structure Analyzer.Lawful (lib : Analyzer) : Prop where
  range_eq : ∀ (buffer : List UByte) (offset length : ℕ), offset + length ≤ buffer.length →
    lib.range buffer offset length = .ok ((buffer.drop offset).take length)
  rest_eq : ∀ (buffer : List UByte) (offset : ℕ), offset < buffer.length →
    lib.rest buffer offset = .ok (buffer.drop offset)

/-- The number that a range holds, most significant byte first. -/
def uint (bytes : List UByte) : ℕ := bytes.foldl (fun n b => n * 256 + b.toNat) 0

structure PacketBuilderTree where
  text : String
  id : ℕ
  offset : ℕ
  origSize : ℕ
  deriving DecidableEq, Repr

def packetBuilder (lib : Analyzer) (buffer : List UByte) : Except Fault PacketBuilderTree := do
  let id ← lib.range buffer 0 1
  let offset ← lib.range buffer 1 2
  let origSize ← lib.range buffer 3 2
  let text := "[pb_id: " ++ toString (uint id) ++ ", pb_offset: " ++ toString (uint offset) ++
    ", pb_orig_size: " ++ toString (uint origSize) ++ "]"
  return ⟨text, uint id, uint offset, uint origSize⟩

def flagsNames : List (ℕ × String) :=
  [(0x01, "FIN"), (0x02, "SYN"), (0x04, "RST"), (0x08, "PSH"), (0x10, "ACK"), (0x20, "URG"),
    (0x40, "ECE"), (0x80, "CWR"), (0x100, "NS")]

/-- The names of the flags that are set. -/
def flagsSet (flags : ℕ) : List String :=
  (flagsNames.filter fun flag => flags &&& flag.1 ≠ 0).map Prod.snd

def flagsText (flags : ℕ) : String :=
  (flagsSet flags).foldl (fun text name => text ++ name ++ " ") "[ " ++ "]"

structure TcpTree where
  length : ℕ
  seq : ℕ
  ack : ℕ
  flags : ℕ
  flagsSet : List String
  offset : ℕ
  window : ℕ
  urgent : ℕ
  options : List UByte
  deriving DecidableEq, Repr

/-- The fields of TCP, and what is appended to the information about the segment. -/
def parseTcpProtoData (lib : Analyzer) (buffer : List UByte) : Except Fault (TcpTree × String) := do
  let length ← lib.range buffer 0 2
  let seq ← lib.range buffer 2 4
  let ack ← lib.range buffer 6 4
  let flags ← lib.range buffer 10 2
  let offset ← lib.range buffer 12 1
  let window ← lib.range buffer 13 2
  let urgent ← lib.range buffer 15 2
  let _ ← lib.rest buffer 17
  let options ← lib.range buffer 17 (uint length - 15)
  let info := " Seq=" ++ toString (uint seq) ++ " Ack=" ++ toString (uint ack) ++ " " ++
    flagsText (uint flags)
  return (⟨uint length, uint seq, uint ack, uint flags, flagsSet (uint flags), uint offset,
    uint window, uint urgent, options⟩, info)

structure QTunnelTree where
  netProto : ℕ
  transportProto : ℕ
  src : List UByte
  srcPort : ℕ
  dst : List UByte
  dstPort : ℕ
  tcp : Option TcpTree
  deriving DecidableEq, Repr

/-- Only the proto data of TCP is looked into. Every address is taken for one of four bytes. -/
def parseQTunnelProto (lib : Analyzer) (buffer : List UByte) :
    Except Fault (QTunnelTree × String) := do
  let netProto ← lib.range buffer 0 1
  let transportProto ← lib.range buffer 1 1
  let src ← lib.range buffer 2 4
  let srcPort ← lib.range buffer 6 2
  let dst ← lib.range buffer 8 4
  let dstPort ← lib.range buffer 12 2
  let info := toString (uint srcPort) ++ " → " ++ toString (uint dstPort)
  let protoData ← lib.rest buffer 14
  if uint transportProto = 6 then
    let (tcp, more) ← parseTcpProtoData lib protoData
    return (⟨uint netProto, uint transportProto, src, uint srcPort, dst, uint dstPort, some tcp⟩,
      info ++ more)
  else
    return (⟨uint netProto, uint transportProto, src, uint srcPort, dst, uint dstPort, none⟩, info)

structure RecordTree where
  type : ℕ
  version : ℕ
  length : ℕ
  builder : PacketBuilderTree
  qtunnel : QTunnelTree
  info : String
  deriving DecidableEq, Repr

/-- What is shown of a segment: records, until one is left to the analyzer's own dissector. -/
inductive TreeItem where
  | record (tree : RecordTree)
  | tls (buffer : List UByte)
  deriving DecidableEq, Repr

/-- One record, and its length; a record of another type ends the script's work. -/
def parseRecord (lib : Analyzer) (buffer : List UByte) (offset : ℕ) :
    Except Fault (TreeItem × Option ℕ) := do
  let type ← lib.range buffer offset 1
  let version ← lib.range buffer (offset + 1) 2
  let length ← lib.range buffer (offset + 3) 2
  if uint type ≠ 0x17 then return (.tls buffer, none)
  else do
    let payload ← lib.rest buffer (offset + 5)
    let builder ← packetBuilder lib payload
    let payload ← lib.rest buffer (offset + 5 + 5)
    let (qtunnel, info) ← parseQTunnelProto lib payload
    return (.record ⟨uint type, uint version, uint length, builder, qtunnel, info⟩,
      some (uint length))

/-- The records from an offset on. The size of the whole buffer is compared with the least size of
one record, at every offset. -/
def parseFakeTls (lib : Analyzer) (buffer : List UByte) (offset : ℕ) :
    Except Fault (List TreeItem) :=
  if offset ≥ buffer.length then .ok []
  else if buffer.length < 25 then .ok []
  else
    match parseRecord lib buffer offset with
    | .error e => .error e
    | .ok (item, none) => .ok [item]
    | .ok (item, some length) =>
      if buffer.length > offset + 5 + length then do
        let later ← parseFakeTls lib buffer (offset + 5 + length)
        return item :: later
      else .ok [item]
termination_by buffer.length - offset

/-- The dissector of a segment. -/
def fakeTlsRec (lib : Analyzer) (buffer : List UByte) : Except Fault (List TreeItem) :=
  parseFakeTls lib buffer 0

end WireShark

end QVPN
