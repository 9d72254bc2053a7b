import QVPN.Structures.HelloStrategy

/-!
# The hello of a server

The hello of a server has the shape of a client's, but names one cipher suite and one compression
method instead of listing them, so that these two fields have no length of their own. It is read
back through a copy of its bytes or in place; both find the fields with the same parser and the
same getters.
-/

namespace QVPN

open BigEndian Memory

/-- What the generator of a server hello asks its strategy for. -/
structure TLS13ServerHelloGenStrategy where
  getLegacyVersion : UShort
  getSessionLength : UByte
  getCipherSuite : UShort
  getCompressionMethod : UByte
  getSupportedVersion : UShort
  deriving DecidableEq, Repr

/-- The strategy the program comes with. -/
def TLS13DefaultServerHelloGenerationStrategy : TLS13ServerHelloGenStrategy where
  getLegacyVersion := 0x0303
  getSessionLength := 32
  getCipherSuite := 0xC02F
  getCompressionMethod := 0
  getSupportedVersion := 0x0304

/-- The one version a server supports has no length in front of it. -/
def TLSSupportedVersionsServerHelloExtension.generateObjectBytes (version : UShort) :
    List UByte := bytes16 version

/-- The extensions of a server. -/
def TLS13ServerHello.generateExtensions (strategy : TLS13ServerHelloGenStrategy) : List UByte :=
  TLSExtensions.generateObjectBytes [
    TLSExtension.generateObjectBytes TLSExtensionType.SUPPORTED_VERSIONS
      (TLSSupportedVersionsServerHelloExtension.generateObjectBytes strategy.getSupportedVersion)]

/-- The default generator of a server hello. -/
def TLS13ServerHello.generateObjectBytes (strategy : TLS13ServerHelloGenStrategy)
    (draws : HelloDraws) : Except Fault (List UByte) := do
  let random ← TLSRandom.generateObjectBytes draws.time draws.random
  let session ← TLSSessionID.generateObjectBytesOfLength draws.session strategy.getSessionLength
  return bytes16 strategy.getLegacyVersion ++ random ++ session ++ bytes16 strategy.getCipherSuite ++
    [strategy.getCompressionMethod] ++ TLS13ServerHello.generateExtensions strategy

/-- The cipher suite takes two bytes and the compression method one, whatever they are. -/
def unifiedServerParseScheme (mem : List UByte) (first : ℕ) :
    Except Fault TLS13HelloPacketScheme := do
  let randomEnd := 2 + TLSRandomView.getTlsRandomFullLength.toNat
  let sessionLength ← TLSSessionIDView.getTlsIdFullLength mem (first + randomEnd)
  let sessionEnd := randomEnd + sessionLength.toNat
  let ciphersEnd := sessionEnd + 2
  let compressionsEnd := ciphersEnd + 1
  let extensionsLength ←
    TLSExtensionsView.getTlsExtensionsFullLength mem (first + compressionsEnd)
  let extensionsEnd := compressionsEnd + extensionsLength.toNat
  return ⟨(2, randomEnd), (randomEnd, sessionEnd), (sessionEnd, ciphersEnd),
    (ciphersEnd, compressionsEnd), (compressionsEnd, extensionsEnd)⟩

/-! Both classes read a field at a position of memory, given the position of the first byte. -/

namespace TLS13ServerHelloPacket

def getTlsVersion (mem : List UByte) (data : ℕ) : Except Fault UShort := read16 mem data

/-- The length byte that the view of the session id begins with. -/
def getTlsIdLength (mem : List UByte) (data : ℕ) (scheme : TLS13HelloPacketScheme) :
    Except Fault UByte := readAt mem (data + scheme.session.1)

/-- The high byte is read at the begin of the range and the low byte at its end. -/
def getTlsCipherSuite (mem : List UByte) (data : ℕ) (scheme : TLS13HelloPacketScheme) :
    Except Fault UShort := do
  let a ← readAt mem (data + scheme.ciphers.1)
  let b ← readAt mem (data + scheme.ciphers.2)
  return join a b

def getTlsCompressionMethod (mem : List UByte) (data : ℕ) (scheme : TLS13HelloPacketScheme) :
    Except Fault UByte := readAt mem (data + scheme.compressions.1)

end TLS13ServerHelloPacket

/-- A server hello held by value. -/
structure TLS13ServerHelloPacketLittleEndian where
  data : List UByte
  scheme : TLS13HelloPacketScheme
  deriving DecidableEq, Repr

namespace TLS13ServerHelloPacketLittleEndian

/-- The bytes are copied, then parsed. -/
def ofBytes (data : List UByte) : Except Fault TLS13ServerHelloPacketLittleEndian := do
  let scheme ← unifiedServerParseScheme data 0
  return ⟨data, scheme⟩

def getTlsVersion (p : TLS13ServerHelloPacketLittleEndian) : Except Fault UShort :=
  TLS13ServerHelloPacket.getTlsVersion p.data 0

def getTlsIdLength (p : TLS13ServerHelloPacketLittleEndian) : Except Fault UByte :=
  TLS13ServerHelloPacket.getTlsIdLength p.data 0 p.scheme

def getTlsCipherSuite (p : TLS13ServerHelloPacketLittleEndian) : Except Fault UShort :=
  TLS13ServerHelloPacket.getTlsCipherSuite p.data 0 p.scheme

def getTlsCompressionMethod (p : TLS13ServerHelloPacketLittleEndian) : Except Fault UByte :=
  TLS13ServerHelloPacket.getTlsCompressionMethod p.data 0 p.scheme

end TLS13ServerHelloPacketLittleEndian

/-- A server hello in place. -/
structure TLS13ServerHelloPacketView where
  mem : List UByte
  data : ℕ
  size : UInt
  scheme : TLS13HelloPacketScheme
  deriving DecidableEq, Repr

namespace TLS13ServerHelloPacketView

/-- The end of the range becomes a size that nothing compares a position with. -/
def ofRange (mem : List UByte) (b e : ℕ) : Except Fault TLS13ServerHelloPacketView := do
  let scheme ← unifiedServerParseScheme mem b
  return ⟨mem, b, UInt32.ofInt (e - b), scheme⟩

def getTlsVersion (p : TLS13ServerHelloPacketView) : Except Fault UShort :=
  TLS13ServerHelloPacket.getTlsVersion p.mem p.data

def getTlsIdLength (p : TLS13ServerHelloPacketView) : Except Fault UByte :=
  TLS13ServerHelloPacket.getTlsIdLength p.mem p.data p.scheme

def getTlsCipherSuite (p : TLS13ServerHelloPacketView) : Except Fault UShort :=
  TLS13ServerHelloPacket.getTlsCipherSuite p.mem p.data p.scheme

def getTlsCompressionMethod (p : TLS13ServerHelloPacketView) : Except Fault UByte :=
  TLS13ServerHelloPacket.getTlsCompressionMethod p.mem p.data p.scheme

end TLS13ServerHelloPacketView

end QVPN
