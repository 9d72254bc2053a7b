import QVPN.Driver.ReceiveLoop
import QVPN.Driver.Server

/-!
# The thread of a client

Once a client is authorized, a thread of the server receives its records and hands them to the
request loop, until an iteration returns false. Receiving may fail; then the iteration has nothing to
hand over, and the thread goes on.
-/

namespace QVPN

open Memory

/-- What an iteration does with what was received: data is handed to the request loop. -/
def handleReceived (layers : QVPNLayersSettings) (client : Fd) (net : ℕ → RequestOutcome)
    (received : SafeRecvState SafeReceiveData) (s : RequestState) : Except Fault (Bool × RequestState) :=
  if received.status.success = false then .ok (true, s)
  else RequestState.vpnRequestLoopIteration layers client net received.data s

/-- So many iterations of the thread: whether it goes on, the receives that were used, and the state.
The receives of an iteration are given so much fuel. -/
def processSocket (layers : QVPNLayersSettings) (client : Fd) (net : ℕ → ℕ → RequestOutcome)
    (received : ℕ → ReceiveData) (fuel : ℕ) :
    ℕ → ℕ → RequestState → Except Fault (Bool × ℕ × RequestState)
  | 0, p, s => .ok (true, p, s)
  | iterations + 1, p, s => do
    let (data, n) ← QVPNSocket.safeRecv SafeReceiveData.addObjectsAndValidate .empty
      (fun k => received (p + k)) fuel
    let (status, s) ← handleReceived layers client (net p) data s
    if status then processSocket layers client net received fuel iterations (p + n) s
    else return (false, p + n, s)

end QVPN
