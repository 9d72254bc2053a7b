import QVPN.Structures.Types

/-!
# The hello of a client

The authorization data of a client travel in the session id of a TLS ClientHello. The hello is
generated layer by layer, each length-prefixed: record, handshake message, hello, extensions.
Random bytes only fill parts of fixed length. The views that read the hello back keep a
position in the received bytes; the end they are given delimits nothing.
-/

namespace QVPN

open BigEndian Memory

/-- The bytes the generator draws for one hello. -/
structure HelloRandom where
  random : List UByte
  ciphers : List UByte
  compressions : List UByte
  keyExchange : List UByte
  random_length : random.length = 32
  ciphers_length : ciphers.length = 34
  compressions_length : compressions.length = 1
  keyExchange_length : keyExchange.length = 32

/-- The three low bytes of a word in wire order. -/
def bytes24 (v : UInt) : List UByte :=
  [(v >>> 16 &&& 0xFF).toUInt8, (v >>> 8 &&& 0xFF).toUInt8, (v &&& 0xFF).toUInt8]

def TLSSessionID.generateObjectBytes (id : List UByte) : List UByte := UInt8.ofNat id.length :: id

def TLSCipherSuit.generateObjectBytes (length : UShort) (ciphers : List UByte) : List UByte :=
  bytes16 length ++ ciphers

def TLSCompression.generateObjectBytes (length : UByte) (compressions : List UByte) : List UByte :=
  length :: compressions

def TLSExtension.generateObjectBytes (extType : UShort) (ext : List UByte) : List UByte :=
  bytes16 extType ++ bytes16 (UInt16.ofNat ext.length) ++ ext

def TLSSupportedVersionsClientHelloExtension.generateObjectBytes (versions : List UShort) :
    List UByte :=
  UInt8.ofNat (2 * versions.length) :: versions.flatMap bytes16

def TLSKeyShareEntry.generateObjectBytes (length keyType : UShort) (keyExchange : List UByte) :
    List UByte :=
  bytes16 keyType ++ bytes16 length ++ keyExchange

def TLSKeyShareClientHello.generateObjectBytes (entries : List (List UByte)) : List UByte :=
  bytes16 (UInt16.ofNat entries.flatten.length) ++ entries.flatten

def TLSServerNameIndicationEntry.generateObjectBytes (host : List UByte) : List UByte :=
  0 :: (bytes16 (UInt16.ofNat host.length) ++ host)

def TLSServerNameIndicationExtension.generateObjectBytes (hosts : List (List UByte)) :
    List UByte :=
  let entries := hosts.flatMap TLSServerNameIndicationEntry.generateObjectBytes
  bytes16 (UInt16.ofNat entries.length) ++ entries

def TLSExtensions.generateObjectBytes (exts : List (List UByte)) : List UByte :=
  bytes16 (UInt16.ofNat exts.flatten.length) ++ exts.flatten

namespace TLSExtensionType

def SERVER_NAME : UShort := 0

def KEY_SHARE : UShort := 40

def SUPPORTED_VERSIONS : UShort := 43

end TLSExtensionType

/-- The extensions of the default strategy with one host. -/
def helloExtensions (rnd : HelloRandom) (host : List UByte) : List UByte :=
  TLSExtensions.generateObjectBytes [
    TLSExtension.generateObjectBytes TLSExtensionType.SUPPORTED_VERSIONS
      (TLSSupportedVersionsClientHelloExtension.generateObjectBytes
        [0x0304, 0x0303, 0x0302, 0x0301]),
    TLSExtension.generateObjectBytes TLSExtensionType.KEY_SHARE
      (TLSKeyShareClientHello.generateObjectBytes
        [TLSKeyShareEntry.generateObjectBytes 32 0x001D rnd.keyExchange]),
    TLSExtension.generateObjectBytes TLSExtensionType.SERVER_NAME
      (TLSServerNameIndicationExtension.generateObjectBytes [host])]

/-- A ClientHello whose session id is given. -/
def TLS13ClientHello.generateObjectBytes (rnd : HelloRandom) (host id : List UByte) : List UByte :=
  bytes16 0x0303 ++ rnd.random ++ TLSSessionID.generateObjectBytes id ++
    TLSCipherSuit.generateObjectBytes 34 rnd.ciphers ++
    TLSCompression.generateObjectBytes 1 rnd.compressions ++ helloExtensions rnd host

/-- A handshake message with its 24-bit size. -/
def TLS13Message.generateObjectBytes (msgType : UByte) (packet : List UByte) : List UByte :=
  msgType :: (bytes24 (UInt32.ofNat packet.length) ++ packet)

/-- A record of a handshake message. -/
def TLS13Record.generateHandshakeBytes (message : List UByte) : List UByte :=
  [22, 0x03, 0x03] ++ bytes16 (UInt16.ofNat message.length) ++ message

namespace TLS13MessageView

/-- The size a message declares. -/
def getTlsMsgLength (mem : List UByte) (pos : ℕ) : Except Fault UInt := do
  let b1 ← readAt mem (pos + 1)
  let b2 ← readAt mem (pos + 2)
  let b3 ← readAt mem (pos + 3)
  return join32 0 b1 b2 b3

/-- The view's size, read when it is built. -/
def getTlsMsgFullLength (mem : List UByte) (pos : ℕ) : Except Fault UInt := do
  let length ← getTlsMsgLength mem pos
  return length + 4

end TLS13MessageView

def TLSRandomView.getTlsRandomFullLength : UShort := 32

def TLSSessionIDView.getTlsIdFullLength (mem : List UByte) (pos : ℕ) : Except Fault UInt := do
  let length ← readAt mem pos
  return length.toUInt32 + 1

/-- The declared length plus its own two bytes, as a 16-bit number. -/
def TLSCipherSuitView.getTlsCiphersFullLength (mem : List UByte) (pos : ℕ) :
    Except Fault UShort := do
  let length ← read16 mem pos
  return length + 2

def TLSCompressionView.getTlsCompressionsFullLength (mem : List UByte) (pos : ℕ) :
    Except Fault UShort := do
  let length ← readAt mem pos
  return length.toUInt16 + 1

/-- The declared length plus its own two bytes, as a 16-bit number. -/
def TLSExtensionsView.getTlsExtensionsFullLength (mem : List UByte) (pos : ℕ) :
    Except Fault UShort := do
  let length ← read16 mem pos
  return length + 2

/-- Where the fields of a hello lie, relative to its first byte. -/
structure TLS13HelloPacketScheme where
  random : ℕ × ℕ
  session : ℕ × ℕ
  ciphers : ℕ × ℕ
  compressions : ℕ × ℕ
  extensions : ℕ × ℕ
  deriving DecidableEq, Repr

/-- Each field starts where the one before it ends, as its length byte says. -/
def unifiedParseClientScheme (mem : List UByte) (first : ℕ) :
    Except Fault TLS13HelloPacketScheme := do
  let randomEnd := 2 + TLSRandomView.getTlsRandomFullLength.toNat
  let sessionLength ← TLSSessionIDView.getTlsIdFullLength mem (first + randomEnd)
  let sessionEnd := randomEnd + sessionLength.toNat
  let ciphersLength ← TLSCipherSuitView.getTlsCiphersFullLength mem (first + sessionEnd)
  let ciphersEnd := sessionEnd + ciphersLength.toNat
  let compressionsLength ←
    TLSCompressionView.getTlsCompressionsFullLength mem (first + ciphersEnd)
  let compressionsEnd := ciphersEnd + compressionsLength.toNat
  let extensionsLength ←
    TLSExtensionsView.getTlsExtensionsFullLength mem (first + compressionsEnd)
  let extensionsEnd := compressionsEnd + extensionsLength.toNat
  return ⟨(2, randomEnd), (randomEnd, sessionEnd), (sessionEnd, ciphersEnd),
    (ciphersEnd, compressionsEnd), (compressionsEnd, extensionsEnd)⟩

end QVPN
