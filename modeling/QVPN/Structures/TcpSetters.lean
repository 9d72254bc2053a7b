import QVPN.Lib.Agreement
import QVPN.Structures.FatPacket

/-!
# Reading and writing a TCP header

The getters and setters of the two TCP classes. A setter of a field writes the same bytes at
the header pointer of either class. The classes part where a size is involved: replacing the
options and taking another header.
-/

namespace QVPN

open BigEndian Memory

namespace TcpHeader

/-- The NS bit is or-ed into byte 12, the other flags replace byte 13. -/
def setFlags (header : List UByte) (flags : TcpFlagsObject) : Except Fault (List UByte) := do
  let b ← readAt header 12
  let header ← writeAt header 12 (b ||| flags.getNs)
  writeAt header 13 flags.getWithoutNs

/-- The upper half of byte 12 is replaced. -/
def setOffset (header : List UByte) (offset : UByte) : Except Fault (List UByte) := do
  let b ← readAt header 12
  writeAt header 12 (offset <<< 4 ||| (b &&& 0x0F))

/-- A number of words is or-ed into the upper half of byte 12. -/
def orWords (header : List UByte) (words : UByte) : Except Fault (List UByte) := do
  let b ← readAt header 12
  writeAt header 12 (b ||| words <<< 4)

end TcpHeader

namespace TcpPacketLittleEndian

def getTcpSrcPort (p : TcpPacketLittleEndian) : Except Fault UShort := read16 p.header 0

def getTcpDstPort (p : TcpPacketLittleEndian) : Except Fault UShort := read16 p.header 2

def getTcpSeqNumber (p : TcpPacketLittleEndian) : Except Fault UInt := read32 p.header 4

def getTcpAckNumber (p : TcpPacketLittleEndian) : Except Fault UInt := read32 p.header 8

def getTcpHeaderLength (p : TcpPacketLittleEndian) : Except Fault UByte := do
  let b ← readAt p.header 12
  return b >>> 4

/-- The three bits below the data offset. -/
def getTcpReserved (p : TcpPacketLittleEndian) : Except Fault UByte := do
  let b ← readAt p.header 12
  return b >>> 1 &&& 0x7

def getTcpFlags (p : TcpPacketLittleEndian) : Except Fault TcpFlagsObject := do
  let b ← readAt p.header 12
  let f ← readAt p.header 13
  return ⟨(b &&& 0x1).toUInt16 <<< 1 ||| f.toUInt16⟩

def getTcpWindowSize (p : TcpPacketLittleEndian) : Except Fault UShort := read16 p.header 14

def getTcpChecksum (p : TcpPacketLittleEndian) : Except Fault UShort := read16 p.header 16

def getTcpUrgentPointer (p : TcpPacketLittleEndian) : Except Fault UShort := read16 p.header 18

/-- Everything behind the fixed header. -/
def getTcpOptions (p : TcpPacketLittleEndian) : Except Fault (List UByte) :=
  slice p.header 20 p.header.length

def toBytes (p : TcpPacketLittleEndian) : List UByte := p.header

def setSrcPort (p : TcpPacketLittleEndian) (port : UShort) : Except Fault TcpPacketLittleEndian := do
  let header ← write16 p.header 0 port
  return ⟨header⟩

def setDstPort (p : TcpPacketLittleEndian) (port : UShort) : Except Fault TcpPacketLittleEndian := do
  let header ← write16 p.header 2 port
  return ⟨header⟩

def setTcpSeqNumber (p : TcpPacketLittleEndian) (number : UInt) :
    Except Fault TcpPacketLittleEndian := do
  let header ← write32 p.header 4 number
  return ⟨header⟩

def setTcpAckNumber (p : TcpPacketLittleEndian) (number : UInt) :
    Except Fault TcpPacketLittleEndian := do
  let header ← write32 p.header 8 number
  return ⟨header⟩

def setTcpFlags (p : TcpPacketLittleEndian) (flags : TcpFlagsObject) :
    Except Fault TcpPacketLittleEndian := do
  let header ← TcpHeader.setFlags p.header flags
  return ⟨header⟩

def setTcpOffset (p : TcpPacketLittleEndian) (offset : UByte) :
    Except Fault TcpPacketLittleEndian := do
  let header ← TcpHeader.setOffset p.header offset
  return ⟨header⟩

def setTcpLength (p : TcpPacketLittleEndian) (wordLength : UByte) :
    Except Fault TcpPacketLittleEndian := do
  let header ← TcpHeader.orWords p.header wordLength
  return ⟨header⟩

/-- The words of a length in bytes are kept in eight bits. -/
def setTransportLength (p : TcpPacketLittleEndian) (bytesLength : UShort) :
    Except Fault TcpPacketLittleEndian := do
  let length : UByte := (bytesLength / 4).toUInt8
  let header ← TcpHeader.orWords p.header length
  return ⟨header⟩

def setTcpWindow (p : TcpPacketLittleEndian) (window : UShort) :
    Except Fault TcpPacketLittleEndian := do
  let header ← write16 p.header 14 window
  return ⟨header⟩

def setTcpUrgent (p : TcpPacketLittleEndian) (urgent : UShort) :
    Except Fault TcpPacketLittleEndian := do
  let header ← write16 p.header 18 urgent
  return ⟨header⟩

/-- Overwrite as many old options as there are new ones, and append the rest. Old options that
the new ones do not reach stay. -/
def setTcpOptions (p : TcpPacketLittleEndian) (options : List UByte) :
    Except Fault TcpPacketLittleEndian := do
  let old ← p.getTcpOptions
  let size := min options.length old.length
  let header ← overwrite p.header 20 (options.take size)
  return ⟨header ++ options.drop size⟩

/-- The new header is appended to what the vector holds, and the data offset is read at its place
in the whole vector. -/
def setData (p : TcpPacketLittleEndian) (mem : List UByte) : Except Fault TcpPacketLittleEndian := do
  let fixed ← slice mem 0 20
  let b ← readAt (p.header ++ fixed) 12
  let options ← slice mem 20 (20 + (((b >>> 4).toNat : ℤ) - 5) * 4)
  return ⟨p.header ++ fixed ++ options⟩

end TcpPacketLittleEndian

namespace TcpPacketView

/-- All four bits below the data offset. -/
def getTcpReserved (v : TcpPacketView) : Except Fault UByte := do
  let b ← readAt v.tcpHeader 12
  return b &&& 0xF

def getTcpChecksum (v : TcpPacketView) : Except Fault UShort := read16 v.tcpHeader 16

def setSrcPort (v : TcpPacketView) (port : UShort) : Except Fault TcpPacketView := do
  let tcpHeader ← write16 v.tcpHeader 0 port
  return { v with tcpHeader }

def setDstPort (v : TcpPacketView) (port : UShort) : Except Fault TcpPacketView := do
  let tcpHeader ← write16 v.tcpHeader 2 port
  return { v with tcpHeader }

def setTcpSeqNumber (v : TcpPacketView) (number : UInt) : Except Fault TcpPacketView := do
  let tcpHeader ← write32 v.tcpHeader 4 number
  return { v with tcpHeader }

def setTcpAckNumber (v : TcpPacketView) (number : UInt) : Except Fault TcpPacketView := do
  let tcpHeader ← write32 v.tcpHeader 8 number
  return { v with tcpHeader }

def setTcpFlags (v : TcpPacketView) (flags : TcpFlagsObject) : Except Fault TcpPacketView := do
  let tcpHeader ← TcpHeader.setFlags v.tcpHeader flags
  return { v with tcpHeader }

def setTcpOffset (v : TcpPacketView) (offset : UByte) : Except Fault TcpPacketView := do
  let tcpHeader ← TcpHeader.setOffset v.tcpHeader offset
  return { v with tcpHeader }

def setTcpLength (v : TcpPacketView) (wordLength : UByte) : Except Fault TcpPacketView := do
  let tcpHeader ← TcpHeader.orWords v.tcpHeader wordLength
  return { v with tcpHeader }

def setTcpWindow (v : TcpPacketView) (window : UShort) : Except Fault TcpPacketView := do
  let tcpHeader ← write16 v.tcpHeader 14 window
  return { v with tcpHeader }

def setTcpUrgent (v : TcpPacketView) (urgent : UShort) : Except Fault TcpPacketView := do
  let tcpHeader ← write16 v.tcpHeader 18 urgent
  return { v with tcpHeader }

/-- Longer options than the view has are ignored, shorter ones shrink it. -/
def setTcpOptions (v : TcpPacketView) (options : List UByte) : Except Fault TcpPacketView :=
  if options.length > v.tcpOptionsSize then .ok v
  else do
    let tcpHeader ← overwrite v.tcpHeader 20 options
    return ⟨tcpHeader, options.length⟩

/-- The view moves to the new header. -/
def setData (_ : TcpPacketView) (mem : List UByte) : Except Fault TcpPacketView := parsePacket mem

end TcpPacketView

/-- The setters that both classes have. -/
inductive TcpCall where
  | srcPort (port : UShort)
  | dstPort (port : UShort)
  | seqNumber (number : UInt)
  | ackNumber (number : UInt)
  | flags (flags : TcpFlagsObject)
  | offset (offset : UByte)
  | window (window : UShort)
  | urgent (urgent : UShort)
  | options (options : List UByte)
  | data (mem : List UByte)
  deriving DecidableEq, Repr

def TcpPacketLittleEndian.call (p : TcpPacketLittleEndian) : TcpCall →
    Except Fault TcpPacketLittleEndian
  | .srcPort port => p.setSrcPort port
  | .dstPort port => p.setDstPort port
  | .seqNumber number => p.setTcpSeqNumber number
  | .ackNumber number => p.setTcpAckNumber number
  | .flags flags => p.setTcpFlags flags
  | .offset offset => p.setTcpOffset offset
  | .window window => p.setTcpWindow window
  | .urgent urgent => p.setTcpUrgent urgent
  | .options options => p.setTcpOptions options
  | .data mem => p.setData mem

def TcpPacketView.call (v : TcpPacketView) : TcpCall → Except Fault TcpPacketView
  | .srcPort port => v.setSrcPort port
  | .dstPort port => v.setDstPort port
  | .seqNumber number => v.setTcpSeqNumber number
  | .ackNumber number => v.setTcpAckNumber number
  | .flags flags => v.setTcpFlags flags
  | .offset offset => v.setTcpOffset offset
  | .window window => v.setTcpWindow window
  | .urgent urgent => v.setTcpUrgent urgent
  | .options options => v.setTcpOptions options
  | .data mem => v.setData mem

end QVPN
