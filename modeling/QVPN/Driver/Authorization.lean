import QVPN.Structures.Hello

/-!
# Authorization

A client announces itself with a hello whose session id holds the crypto method, the key and
the user, each string behind its length byte. The server takes the first bytes it receives,
if there are any, checks the record type and the message type, lets the hello view find the
fields, and reads the credentials from the session id.
-/

namespace QVPN

open BigEndian Memory

/-- What a session id says about a client. -/
structure Credentials where
  method : UShort
  key : List UByte
  user : List UByte
  deriving DecidableEq, Repr

/-- The session id a client builds from its settings. -/
def Credentials.cryptoData (cred : Credentials) : List UByte :=
  [hi cred.method, lo cred.method] ++ [UInt8.ofNat cred.key.length] ++ cred.key ++
    [UInt8.ofNat cred.user.length] ++ cred.user

namespace QVPNClientDriver

/-- The body of the record sent by `init`. -/
def helloMessage (rnd : HelloRandom) (host : List UByte) (cred : Credentials) : List UByte :=
  TLS13Message.generateObjectBytes 1
    (TLS13ClientHello.generateObjectBytes rnd host cred.cryptoData)

/-- The record `init` sends. -/
def initHello (rnd : HelloRandom) (host : List UByte) (cred : Credentials) : List UByte :=
  TLS13Record.generateHandshakeBytes (helloMessage rnd host cred)

end QVPNClientDriver

namespace QVPNServerDriver

/-- The credentials at a position, which is the first byte behind the length of the id. -/
def readCredentials (received : List UByte) (d : ℕ) : Except Fault Credentials := do
  let method ← read16 received d
  let keySize ← readAt received (d + 2)
  let key ← slice received (d + 3 : ℕ) (d + 3 + keySize.toNat : ℕ)
  let userSize ← readAt received (d + 3 + keySize.toNat)
  let userStart := d + 3 + keySize.toNat + 1
  let user ← slice received (userStart : ℕ) (userStart + userSize.toNat : ℕ)
  return ⟨method, key, user⟩

/-- The credentials in the first bytes of a new connection, when there are any; `none` if the
connection is rejected. -/
def checkHello (received : List UByte) : Except Fault (Option Credentials) := do
  let recordType ← readAt received 0
  if recordType ≠ 22 then return none
  else do
    let mb := 5
    let _ ← TLS13MessageView.getTlsMsgFullLength received mb
    let msgType ← readAt received mb
    if msgType ≠ 1 then return none
    else do
      let hb := mb + 4
      let scheme ← unifiedParseClientScheme received hb
      let session := hb + scheme.session.1
      let _ ← TLSSessionIDView.getTlsIdFullLength received session
      let cred ← readCredentials received (session + 1)
      return some cred

/-- A receive of nothing has failed, and the connection is rejected before a byte is looked at. -/
def authorize (received : List UByte) : Except Fault (Option Credentials) :=
  if received.length = 0 then .ok none else checkHello received

end QVPNServerDriver

end QVPN
