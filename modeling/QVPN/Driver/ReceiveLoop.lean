import QVPN.Driver.SafeReceive
import QVPN.Lib.InputLoop

/-!
# The receive loop

`safe_recv` takes buffers from a socket until framing says that the data is full. It starts with
twenty tries and loses one with every receive that fails. The loop is the same for stream sockets
and raw sockets; how the bytes are framed is a parameter, as the class of the objects is in the
code.
-/

namespace QVPN

open Memory

structure NetStatus where
  success : Bool
  status : ℤ
  deriving DecidableEq, Repr

def NetStatus.default : NetStatus := ⟨false, 0⟩

/-- What one receive returns: as many bytes of the buffer as were received. -/
structure ReceiveData where
  status : NetStatus
  data : List UByte
  deriving DecidableEq, Repr

/-- The variables of the loop. The status is a field of the data in the code. -/
structure SafeRecvState (δ : Type) where
  signal : SafeReceiveSignal
  data : δ
  status : NetStatus
  numTries : ℤ

namespace SafeRecvState

variable {δ : Type}

def start (empty : δ) : SafeRecvState δ := ⟨.SFR_NO_DATA, empty, .default, 20⟩

/-- The condition of the loop. -/
def continues (s : SafeRecvState δ) : Bool :=
  s.signal ≠ .SFR_FULL_DATA || s.signal = .SFR_ERROR || s.numTries ≤ 0

/-- The body of the loop. -/
def receive (addObjectsAndValidate : δ → SafeReceiveSignal → List UByte →
      Except Fault (SafeReceiveSignal × δ))
    (s : SafeRecvState δ) (received : ReceiveData) : Except Fault (SafeRecvState δ) :=
  if !received.status.success then
    .ok { s with status := received.status, numTries := s.numTries - 1 }
  else do
    let (signal, data) ← addObjectsAndValidate s.data s.signal received.data
    return ⟨signal, data, received.status, s.numTries⟩

end SafeRecvState

/-- At most `fuel` rounds of the loop: its last state, and the number of receives, which the code
prints. -/
def QVPNSocket.safeRecv {δ : Type} (addObjectsAndValidate : δ → SafeReceiveSignal → List UByte →
      Except Fault (SafeReceiveSignal × δ))
    (empty : δ) (received : ℕ → ReceiveData) (fuel : ℕ) : Except Fault (SafeRecvState δ × ℕ) :=
  InputLoop.run SafeRecvState.continues (SafeRecvState.receive addObjectsAndValidate) received fuel
    0 (.start empty)

/-- The raw socket has the same loop. -/
def QVPNRawSocket.safeRecv {δ : Type} (addObjectsAndValidate : δ → SafeReceiveSignal → List UByte →
      Except Fault (SafeReceiveSignal × δ))
    (empty : δ) (received : ℕ → ReceiveData) (fuel : ℕ) : Except Fault (SafeRecvState δ × ℕ) :=
  QVPNSocket.safeRecv addObjectsAndValidate empty received fuel

end QVPN
