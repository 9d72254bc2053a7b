import QVPN.Driver.Server
import QVPN.Lib.Polling

/-!
# The response thread

One thread of the server goes over the table of response sockets again and again. Each raw socket is
asked for a packet; one that has none in time is passed by. A packet goes to the client of its entry,
and a packet that resets its connection takes the entry out. Which order the table has is not
specified, and other threads change it between two rounds. A change during a round would invalidate
the iterator and is not modelled.
-/

namespace QVPN

/-- What a raw socket received, and which sends to the client succeed after that. -/
structure RawReceive where
  bytes : List UByte
  sent : ℕ → Bool

abbrev ListenRound := Polling.Round QVPNServerSocketData (Fd × PackedSocket) RawReceive

abbrev ListenState := Polling.State QVPNServerSocketData (Fd × PackedSocket) QVPNPacketManager

/-- A packet that was taken up, and the records that were handed to the socket of its client. -/
abbrev TakenUp := Polling.Taken QVPNServerSocketData (Fd × PackedSocket) RawReceive (List (List UByte))

/-- What the thread does with a packet of an entry. -/
def takeUp (layers : QVPNLayersSettings) (key : QVPNServerSocketData) (_ : Fd × PackedSocket)
    (received : RawReceive) (m : QVPNPacketManager) :
    Except Fault (List (List UByte) × Bool × QVPNPacketManager) :=
  vpnResponseLoopIteration layers m received.sent key (receiveBuffer received.bytes)
    received.bytes.length

/-- So many rounds of the thread. -/
def listenResponseSockets (layers : QVPNLayersSettings) :
    List ListenRound → ListenState → Except Fault (List TakenUp × ListenState) :=
  Polling.rounds (takeUp layers)

end QVPN
