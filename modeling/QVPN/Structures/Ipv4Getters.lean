import QVPN.Structures.FatPacket

/-!
# Reading an IPv4 header

The getters of the two IPv4 classes. Both classes read a field by the same expression over the
bytes at their header pointer; what they derive from their own sizes differs.
-/

namespace QVPN

open BigEndian Checksum Memory

/-- A field that is a function of one header byte. -/
def Ipv4Header.byteField (header : List UByte) (i : ℕ) (f : UByte → UByte) : Except Fault UByte := do
  let b ← readAt header i
  return f b

/-- The fragment offset takes the five low bits of its first byte, shifted by five. -/
def Ipv4Header.offset (header : List UByte) : Except Fault UShort := do
  let b6 ← readAt header 6
  let b7 ← readAt header 7
  return (b6 &&& 0x1F).toUInt16 <<< 5 ||| b7.toUInt16

/-- Four bytes as an IPv4 address. -/
def Ipv4Header.address (header : List UByte) (i : ℕ) : Except Fault (List UByte) := do
  let b0 ← readAt header i
  let b1 ← readAt header (i + 1)
  let b2 ← readAt header (i + 2)
  let b3 ← readAt header (i + 3)
  return [b0, b1, b2, b3]

namespace Ipv4PacketLittleEndian

variable (p : Ipv4PacketLittleEndian)

def getIpVersion : Except Fault NetProtocol := do
  let b ← readAt p.header 0
  return ⟨b >>> 4⟩

def getIpHeaderLength : Except Fault UByte := Ipv4Header.byteField p.header 0 (· &&& 0xF)

def getIpDscp : Except Fault UByte := Ipv4Header.byteField p.header 1 (· >>> 2)

def getIpEcn : Except Fault UByte := Ipv4Header.byteField p.header 1 (· &&& 0x3)

def getIpTotalLength : Except Fault UShort := read16 p.header 2

def getIpId : Except Fault UShort := read16 p.header 4

def getIpFlags : Except Fault UByte := Ipv4Header.byteField p.header 6 (· >>> 5)

def getIpDfFlag : Except Fault UByte := do
  let flags ← p.getIpFlags
  return flags >>> 1 &&& 0x1

def getIpMfFlag : Except Fault UByte := do
  let flags ← p.getIpFlags
  return flags &&& 0x1

def getIpOffset : Except Fault UShort := Ipv4Header.offset p.header

def getIpTtl : Except Fault UByte := readAt p.header 8

def getIpProtocol : Except Fault TransportProtocol := do
  let b ← readAt p.header 9
  return ⟨b⟩

def getIpChecksum : Except Fault UShort := read16 p.header 10

def getIpSource : Except Fault (List UByte) := Ipv4Header.address p.header 12

def getIpDest : Except Fault (List UByte) := Ipv4Header.address p.header 16

def getSrcAddr : Except Fault NetAddr := do
  let ip ← slice p.header 12 16
  return ⟨ip⟩

def getDstAddr : Except Fault NetAddr := do
  let ip ← slice p.header 16 20
  return ⟨ip⟩

/-- Everything behind the fixed header. -/
def getIpAdditionalHeader : Except Fault (List UByte) := slice p.header 20 p.header.length

def toBytes : List UByte := p.header

/-- Zero the checksum, add the words of the whole vector, store the complement. -/
def recalculateIpChecksum : Except Fault Ipv4PacketLittleEndian := do
  let header ← write16 p.header 10 0
  let sum ← sumWords header (wordPositions header.length) 0
  let header ← write16 header 10 (complement sum)
  return ⟨header⟩

end Ipv4PacketLittleEndian

namespace Ipv4PacketView

variable (v : Ipv4PacketView)

def getIpDscp : Except Fault UByte := Ipv4Header.byteField v.header 1 (· >>> 2)

def getIpEcn : Except Fault UByte := Ipv4Header.byteField v.header 1 (· &&& 0x3)

def getIpId : Except Fault UShort := read16 v.header 4

def getIpFlags : Except Fault UByte := Ipv4Header.byteField v.header 6 (· >>> 5)

def getIpDfFlag : Except Fault UByte := do
  let flags ← v.getIpFlags
  return flags >>> 1 &&& 0x1

def getIpMfFlag : Except Fault UByte := do
  let flags ← v.getIpFlags
  return flags &&& 0x1

def getIpOffset : Except Fault UShort := Ipv4Header.offset v.header

def getIpTtl : Except Fault UByte := readAt v.header 8

def getIpChecksum : Except Fault UShort := read16 v.header 10

def getIpSource : Except Fault (List UByte) := Ipv4Header.address v.header 12

def getIpDest : Except Fault (List UByte) := Ipv4Header.address v.header 16

/-- As many bytes behind the fixed header as the view has counted. -/
def getIpAdditionalHeader : Except Fault (List UByte) := slice v.header 20 (20 + v.addHeaderSize)

end Ipv4PacketView

end QVPN
