import QVPN.Driver.Handshake

/-!
# The client's outbound path

The client captures packets, encodes each and sends the records over its tunnel socket. A send that
fails ends the packet: what is left of it is dropped, the client tries to reconnect, and announces
itself on the new connection. Whether that succeeds is not looked at, so the next packet is sent in
any case.

What the client does is kept as the list of its socket calls, with what the operating system answered.
-/

namespace QVPN

open Memory QVPNPacketManager

/-- A call on the tunnel socket, and whether it succeeded. -/
inductive SocketCall where
  | connect (success : Bool)
  | reconnect (success : Bool)
  | send (bytes : List UByte) (success : Bool)
  | receive (success : Bool)
  deriving DecidableEq, Repr

/-- What the operating system answers about an announcement, and what is drawn for its hello: the
random parts, and a host of the whitelist. -/
structure HelloOutcome where
  rnd : HelloRandom
  host : List UByte
  net : QVPNClientDriver.InitOutcome

/-- What the operating system answers while one packet is sent: about each of its records, about each
try to reconnect, which is named by the tries that remain, and about the announcement behind it. -/
structure SendOutcome where
  sent : ℕ → Bool
  reconnected : ℕ → Bool
  hello : HelloOutcome

namespace QVPNClientDriver

/-- Reconnect until it succeeds, at most so many times. -/
def tryReconnect (reconnected : ℕ → Bool) : ℕ → Bool × List SocketCall
  | 0 => (false, [])
  | number + 1 =>
    let success := reconnected (number + 1)
    if success then (true, [.reconnect true])
    else
      let (success, calls) := tryReconnect reconnected number
      (success, .reconnect false :: calls)

/-- The calls of `init`. -/
def initCalls (cred : Credentials) (hello : HelloOutcome) : List SocketCall :=
  [.send (initHello hello.rnd hello.host cred) hello.net.sent,
    .receive hello.net.received.status.success]

/-- Announce the client if it is connected. -/
def initIf (cred : Credentials) (success : Bool) (hello : HelloOutcome) :
    Except Fault (List SocketCall) :=
  if success then do
    let _ ← init hello.net
    return initCalls cred hello
  else .ok []

/-- Connect and announce the client, or reconnect and announce it. -/
def initDriver (cred : Credentials) (connected : Bool) (net : SendOutcome) :
    Except Fault (List SocketCall) :=
  if connected then do
    let calls ← initIf cred true net.hello
    return .connect true :: calls
  else do
    let (success, tries) := tryReconnect net.reconnected 20
    let calls ← initIf cred success net.hello
    return .connect false :: (tries ++ calls)

/-- Send the records one after the other until a send fails. -/
def sendLoop (cred : Credentials) (packet : SplittedPacket) (net : SendOutcome) :
    List ℕ → Except Fault (List SocketCall)
  | [] => .ok []
  | i :: rest => do
    let record ← packet.getRawPacket i
    if net.sent i = false then
      let (success, tries) := tryReconnect net.reconnected 20
      let calls ← initIf cred success net.hello
      return .send record false :: (tries ++ calls)
    else
      let calls ← sendLoop cred packet net rest
      return .send record true :: calls

def encodeAndSend (cred : Credentials) (layers : QVPNLayersSettings)
    (m : QVPNPacketManager) (net : SendOutcome) (proxy : QTunnelProxy) (payload : List UByte) :
    Except Fault (List SocketCall × QVPNPacketManager) := do
  let (packet, m) ← encodeData layers m proxy payload
  let calls ← sendLoop cred packet net (List.range packet.size)
  return (calls, m)

end QVPNClientDriver

/-- A packet in the capture buffer. -/
structure Captured where
  mem : List UByte
  size : ℕ
  deriving DecidableEq, Repr

/-- What the capture loop reads of a packet before it sends it; the packet is printed then. -/
def Captured.readPacket (c : Captured) : Except Fault (QTunnelProxy × List UByte) := do
  let package ← FullPacketView.preParse c.mem c.size
  let ver ← package.getProtocolVersion
  let transportProto ← package.getTransportProtocol
  let ipSrc ← package.getSrcAddr
  let portSrc ← package.getSrcPort
  let ipDest ← package.getDstAddr
  let portDst ← package.getDstPort
  let protoData ← package.collectProtoData
  let payload ← package.getPayload c.mem
  let _ ← package.toPacketFriendlyView
  return (⟨ver, transportProto, ipSrc, portSrc, ipDest, portDst, protoData⟩, payload)

/-- The capture loop over the packets that were captured; a capture that fails is passed over. -/
def outgoingCaptureLoop (cred : Credentials) (layers : QVPNLayersSettings)
    (m : QVPNPacketManager) :
    List (Option Captured × SendOutcome) → Except Fault (List SocketCall × QVPNPacketManager)
  | [] => .ok ([], m)
  | (none, _) :: later => outgoingCaptureLoop cred layers m later
  | (some c, net) :: later => do
    let (proxy, payload) ← c.readPacket
    let (calls, m) ← QVPNClientDriver.encodeAndSend cred layers m net proxy payload
    let (rest, m) ← outgoingCaptureLoop cred layers m later
    return (calls ++ rest, m)

end QVPN
