import QVPN.Lib.Strides
import QVPN.Structures.Hello

/-!
# The hello of a client, read back

A client hello is read through a copy of its bytes or in place. Its server names are looked up by a
loop over the extensions: each extension declares its length in its third and fourth byte, which
the view of the extension reads as soon as it is made, and the first extension of the type of the
server names ends the loop.
-/

namespace QVPN

open BigEndian Memory

namespace TLSExtensionView

def getTlsExtLength (mem : List UByte) (data : ℕ) : Except Fault UShort := read16 mem (data + 2)

/-- The declared length plus the four bytes of the header, as a 16-bit number. -/
def getTlsExtFullLength (mem : List UByte) (data : ℕ) : Except Fault UShort := do
  let length ← getTlsExtLength mem data
  return length + 4

def getTlsExtType (mem : List UByte) (data : ℕ) : Except Fault UShort := read16 mem data

end TLSExtensionView

namespace TLSSNIRecordType

def HOST_NAME : UByte := 0

end TLSSNIRecordType

namespace TLSServerNameIndicationEntryView

def getTlsSniLength (mem : List UByte) (data : ℕ) : Except Fault UShort := read16 mem (data + 1)

def getTlsSniRecordType (mem : List UByte) (data : ℕ) : Except Fault UByte := readAt mem data

/-- The size of the entry is its declared length plus the three bytes of its header. -/
def getTlsSniEntryData (mem : List UByte) (data : ℕ) : Except Fault (List UByte) := do
  let length ← getTlsSniLength mem data
  slice mem (data + 3) (data + (length.toNat + 3))

end TLSServerNameIndicationEntryView

/-- A list of server names in place. -/
structure TLSServerNameIndicationExtensionView where
  mem : List UByte
  data : ℕ
  size : UInt
  deriving DecidableEq, Repr

namespace TLSServerNameIndicationExtensionView

def getTlsSniLength (v : TLSServerNameIndicationExtensionView) : Except Fault UShort :=
  read16 v.mem v.data

/-- The length is read at the first byte; where the range ends does not matter. -/
def ofRange (mem : List UByte) (first : ℕ) : Except Fault TLSServerNameIndicationExtensionView := do
  let length ← read16 mem first
  return ⟨mem, first, (length + 2).toUInt32⟩

def getTlsSniData (v : TLSServerNameIndicationExtensionView) : Except Fault (List UByte) :=
  slice v.mem (v.data + 2) (v.data + v.size.toNat)

end TLSServerNameIndicationExtensionView

/-- Where the extensions behind their length begin and end, as their view sees it. -/
def TLSExtensionsView.getTlsExtensions (mem : List UByte) (first : ℕ) : Except Fault (ℕ × ℕ) := do
  let size ← getTlsExtensionsFullLength mem first
  return (first + 2, first + size.toNat)

namespace TLS13ClientHelloPacket

/-- One iteration over the extensions: the loop is left at the server names, and goes on behind any
other extension. -/
def sniIteration (mem : List UByte) (i : ℕ) : Except Fault (Option ℕ) := do
  let fullLength ← TLSExtensionView.getTlsExtFullLength mem i
  let extType ← TLSExtensionView.getTlsExtType mem i
  if extType = TLSExtensionType.SERVER_NAME then return none
  return some fullLength.toNat

/-- The view of the server names begins where the loop is left, or where the extensions begin if
none of them holds server names. -/
def getTlsSniData (mem : List UByte) (fuel b e : ℕ) :
    Except Fault TLSServerNameIndicationExtensionView := do
  let i ← Strides.run (sniIteration mem) e fuel b
  if i < e then TLSServerNameIndicationExtensionView.ofRange mem i
  else TLSServerNameIndicationExtensionView.ofRange mem b

end TLS13ClientHelloPacket

/-- A client hello held by value. -/
structure TLS13ClientHelloPacketLittleEndian where
  data : List UByte
  scheme : TLS13HelloPacketScheme
  deriving DecidableEq, Repr

namespace TLS13ClientHelloPacketLittleEndian

/-- The bytes are copied, then parsed. -/
def ofBytes (data : List UByte) : Except Fault TLS13ClientHelloPacketLittleEndian := do
  let scheme ← unifiedParseClientScheme data 0
  return ⟨data, scheme⟩

def getTlsExtensions (p : TLS13ClientHelloPacketLittleEndian) : Except Fault (ℕ × ℕ) :=
  TLSExtensionsView.getTlsExtensions p.data p.scheme.extensions.1

def getTlsSniData (p : TLS13ClientHelloPacketLittleEndian) (fuel : ℕ) :
    Except Fault TLSServerNameIndicationExtensionView := do
  let (b, e) ← p.getTlsExtensions
  TLS13ClientHelloPacket.getTlsSniData p.data fuel b e

end TLS13ClientHelloPacketLittleEndian

/-- A client hello in place. -/
structure TLS13ClientHelloPacketView where
  mem : List UByte
  data : ℕ
  size : UInt
  scheme : TLS13HelloPacketScheme
  deriving DecidableEq, Repr

namespace TLS13ClientHelloPacketView

/-- The end of the range becomes a size that nothing compares a position with. -/
def ofRange (mem : List UByte) (b e : ℕ) : Except Fault TLS13ClientHelloPacketView := do
  let scheme ← unifiedParseClientScheme mem b
  return ⟨mem, b, UInt32.ofInt (e - b), scheme⟩

def getTlsExtensions (p : TLS13ClientHelloPacketView) : Except Fault (ℕ × ℕ) :=
  TLSExtensionsView.getTlsExtensions p.mem (p.data + p.scheme.extensions.1)

def getTlsSniData (p : TLS13ClientHelloPacketView) (fuel : ℕ) :
    Except Fault TLSServerNameIndicationExtensionView := do
  let (b, e) ← p.getTlsExtensions
  TLS13ClientHelloPacket.getTlsSniData p.mem fuel b e

end TLS13ClientHelloPacketView

end QVPN
