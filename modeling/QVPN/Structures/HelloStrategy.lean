import QVPN.Structures.Hello

/-!
# The hello of a strategy

The default generator of a ClientHello asks a strategy for the lengths of the session id, of the
ciphers and of the compressions, and for the lists its extensions are made of. One helper fills
the parts with random bytes. It takes the size of a part in the integer type it is instantiated
at, and everything from a payload offset on is drawn.
-/

namespace QVPN

open BigEndian Memory

namespace TLSTools

/-- A vector whose bytes from the offset on are drawn; the range of these bytes must exist. -/
def bytesGenerator (draw : ℕ → UByte) (length payloadOffset : ℕ) : Except Fault (List UByte) :=
  if payloadOffset ≤ length then
    .ok (List.replicate payloadOffset 0 ++ (List.range (length - payloadOffset)).map draw)
  else .error .invalidRange

/-- The length is passed in an unsigned type of the given width. -/
def vectorBytesGenerator (bits : ℕ) (draw : ℕ → UByte) (length payloadOffset : ℕ) :
    Except Fault (List UByte) := bytesGenerator draw (length % 2 ^ bits) payloadOffset

/-- A part of the full length whose header is written over the bytes in front of the payload. -/
def headedBytes (bits : ℕ) (draw : ℕ → UByte) (fullLength : ℕ) (header : List UByte) :
    Except Fault (List UByte) := do
  let objBytes ← vectorBytesGenerator bits draw fullLength header.length
  overwrite objBytes 0 header

end TLSTools

/-- Four bytes of time and twenty-eight drawn ones. -/
def TLSRandom.generateObjectBytes (time : UInt) (draw : ℕ → UByte) : Except Fault (List UByte) := do
  let objBytes ← TLSTools.bytesGenerator draw 32 4
  overwrite objBytes 0 (bytes32 time)

def TLSSessionID.generateObjectBytesOfLength (draw : ℕ → UByte) (length : UByte) :
    Except Fault (List UByte) := TLSTools.headedBytes 8 draw (length.toNat + 1) [length]

/-- The length has two bytes, but the helper takes the full length in one. -/
def TLSCipherSuit.generateObjectBytesOfLength (draw : ℕ → UByte) (length : UShort) :
    Except Fault (List UByte) := TLSTools.headedBytes 8 draw (length.toNat + 2) (bytes16 length)

def TLSCompression.generateObjectBytesOfLength (draw : ℕ → UByte) (length : UByte) :
    Except Fault (List UByte) := TLSTools.headedBytes 8 draw (length.toNat + 1) [length]

def TLSKeyShareEntry.generateObjectBytesOfLength (draw : ℕ → UByte) (length keyType : UShort) :
    Except Fault (List UByte) :=
  TLSTools.headedBytes 16 draw (length.toNat + 4) (bytes16 keyType ++ bytes16 length)

/-- The entries are drawn one after the other. -/
def TLSKeyShareClientHello.generateObjectBytesOfKeyShare (draw : ℕ → ℕ → UByte)
    (keyShare : List (UShort × UShort)) : Except Fault (List UByte) := do
  let entries ← keyShare.zipIdx.mapM fun entry =>
    TLSKeyShareEntry.generateObjectBytesOfLength (draw entry.2) entry.1.2 entry.1.1
  return TLSKeyShareClientHello.generateObjectBytes entries

/-- The number of hosts is counted in sixteen bits. -/
def TLSServerNameIndicationExtension.generateObjectBytesOfHosts (hosts : List (List UByte)) :
    List UByte :=
  TLSServerNameIndicationExtension.generateObjectBytes
    (hosts.take (UInt16.ofNat hosts.length).toNat)

/-- What the generator asks its strategy for. A key share is a key type with its length. -/
structure TLS13ClientHelloGenStrategy where
  getLegacyVersion : UShort
  getSessionLength : UByte
  getCipherLength : UShort
  getCompressionLength : UShort
  getSupportedVersions : List UShort
  getKeyShare : List (UShort × UShort)
  getSniHosts : List (List UByte)

/-- The strategy the program comes with. -/
def TLS13DefaultClientHelloGenerationStrategy : TLS13ClientHelloGenStrategy where
  getLegacyVersion := 0x0303
  getSessionLength := 32
  getCipherLength := 34
  getCompressionLength := 1
  getSupportedVersions := [0x0304, 0x0303, 0x0302, 0x0301]
  getKeyShare := [(0x001D, 32)]
  getSniHosts := [[118, 107, 46, 99, 111, 109]]

/-- The time and the bytes drawn for each part. -/
structure HelloDraws where
  time : UInt
  random : ℕ → UByte
  session : ℕ → UByte
  cipher : ℕ → UByte
  compres : ℕ → UByte
  keyExchange : ℕ → ℕ → UByte

/-- The parts of a hello in wire order. -/
structure TLS13ClientHelloParts where
  legacyVersion : List UByte
  random : List UByte
  session : List UByte
  cipher : List UByte
  compres : List UByte
  extensions : List UByte
  deriving DecidableEq, Repr

namespace TLS13ClientHello

/-- The extensions of a strategy, in the order of the code. -/
def generateExtensions (strategy : TLS13ClientHelloGenStrategy) (draws : HelloDraws) :
    Except Fault (List UByte) := do
  let keyShare ← TLSKeyShareClientHello.generateObjectBytesOfKeyShare draws.keyExchange
    strategy.getKeyShare
  return TLSExtensions.generateObjectBytes [
    TLSExtension.generateObjectBytes TLSExtensionType.SUPPORTED_VERSIONS
      (TLSSupportedVersionsClientHelloExtension.generateObjectBytes strategy.getSupportedVersions),
    TLSExtension.generateObjectBytes TLSExtensionType.KEY_SHARE keyShare,
    TLSExtension.generateObjectBytes TLSExtensionType.SERVER_NAME
      (TLSServerNameIndicationExtension.generateObjectBytesOfHosts strategy.getSniHosts)]

/-- The parts, generated one by one. The compression length is passed as a byte. -/
def generateParts (strategy : TLS13ClientHelloGenStrategy) (draws : HelloDraws) :
    Except Fault TLS13ClientHelloParts := do
  let random ← TLSRandom.generateObjectBytes draws.time draws.random
  let session ← TLSSessionID.generateObjectBytesOfLength draws.session strategy.getSessionLength
  let cipher ← TLSCipherSuit.generateObjectBytesOfLength draws.cipher strategy.getCipherLength
  let compres ← TLSCompression.generateObjectBytesOfLength draws.compres
    strategy.getCompressionLength.toUInt8
  let extensions ← generateExtensions strategy draws
  return ⟨bytes16 strategy.getLegacyVersion, random, session, cipher, compres, extensions⟩

end TLS13ClientHello

/-- The generated bytes. -/
def TLS13ClientHelloParts.objBytes (parts : TLS13ClientHelloParts) : List UByte :=
  parts.legacyVersion ++ parts.random ++ parts.session ++ parts.cipher ++ parts.compres ++
    parts.extensions

/-- The default generator of a hello. -/
def TLS13ClientHello.generateObjectBytesOfStrategy (strategy : TLS13ClientHelloGenStrategy)
    (draws : HelloDraws) : Except Fault (List UByte) := do
  let parts ← TLS13ClientHello.generateParts strategy draws
  return parts.objBytes

end QVPN
