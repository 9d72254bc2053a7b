import QVPN.Driver.Authorization
import QVPN.Driver.ReceiveLoop
import QVPN.Driver.Server
import QVPN.Structures.Message
import QVPN.Structures.ServerHello

/-!
# The handshake

A client sends its hello and waits for one answer. The server reads the credentials from the first
bytes of a connection, looks the user up, and answers a registered one with a hello of its own; every
other connection is closed without an answer. Both sides receive into an array of zeros, so that a
hello that arrives in part is read on in zeros.
-/

namespace QVPN

open Memory

namespace QVPNClientDriver

/-- Whether received bytes are the answer to a hello. Only the two types are compared; the view of
the hello finds its fields, but nobody asks for them. -/
def checkAnswer (mem : List UByte) : Except Fault Bool := do
  let recordType ← readAt mem 0
  if recordType ≠ 22 then return false
  else do
    let mes ← TLS13MessageView.ofRange mem 5
    let msgType ← mes.getMsgType
    if msgType ≠ 2 then return false
    else do
      let _ ← TLS13ServerHelloPacketView.ofRange mem (mes.data + 4) (mes.data + mes.size.toNat)
      return true

/-- What the operating system answers while a client announces itself. -/
structure InitOutcome where
  sent : Bool
  received : ReceiveData
  deriving DecidableEq, Repr

/-- Whether the hello was sent is looked at last, when the answer is there. -/
def init (net : InitOutcome) : Except Fault Bool :=
  if net.received.status.success = false then .ok false
  else do
    let accepted ← checkAnswer (receiveBuffer net.received.data)
    if accepted = false then return false else return net.sent

end QVPNClientDriver

namespace QVPNServerDriver

/-- The answer to a registered client. -/
def answerRecord (draws : HelloDraws) : Except Fault (List UByte) := do
  let hello ← TLS13ServerHello.generateObjectBytes TLS13DefaultServerHelloGenerationStrategy draws
  return TLS13Record.generateHandshakeBytes (TLS13Message.generateObjectBytes 2 hello)

/-- What the operating system answers about an accepted connection. -/
structure AcceptOutcome where
  received : ReceiveData
  sent : Bool
  deriving DecidableEq, Repr

/-- What becomes of an accepted connection: the records handed to its socket, and the credentials of
its tunnel unless it is closed. -/
structure Accepted where
  sends : List (List UByte)
  tunnel : Option Credentials
  deriving DecidableEq, Repr

/-- One round of the accept loop whose listening succeeds. -/
def listenAndConnectSocket (checkUser : List UByte → Bool) (draws : HelloDraws)
    (net : AcceptOutcome) : Except Fault Accepted :=
  if net.received.status.success = false then .ok ⟨[], none⟩
  else do
    let cred ← checkHello (receiveBuffer net.received.data)
    match cred with
    | none => return ⟨[], none⟩
    | some cred =>
      if checkUser cred.user = false then return ⟨[], none⟩
      else do
        let record ← answerRecord draws
        if net.sent then return ⟨[record], some cred⟩ else return ⟨[record], none⟩

end QVPNServerDriver

end QVPN
