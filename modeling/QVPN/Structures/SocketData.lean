import QVPN.Lib.Comparison
import QVPN.Structures.Types

/-!
# Keys of the connection tables

The socket data of a connection are the keys of the unordered maps of client and server. Their
equality goes through the addresses, whose comparison runs over the bytes of its left operand;
their hash is that of their text.
-/

namespace QVPN

open Memory

namespace NetAddr

/-- `operator==`: compare as many bytes as the left address has. -/
def operatorEq (a other : NetAddr) : Except Fault Bool := compareFrom a.ip other.ip a.ip.length 0

/-- Every byte in decimal with a dot behind it; the last dot is cut away. -/
def toString (a : NetAddr) : String :=
  let temp := String.join (a.ip.map fun b => b.toNat.repr ++ ".")
  String.ofList temp.toList.dropLast

end NetAddr

namespace QVPNServerSocketData

def operatorEq (k other : QVPNServerSocketData) : Except Fault Bool :=
  andThen (.ok (decide (k.netProto = other.netProto))) <|
  andThen (.ok (decide (k.transportProto = other.transportProto))) <|
  andThen (k.clientLocalAddr.operatorEq other.clientLocalAddr) <|
  andThen (k.serverLocalAddr.operatorEq other.serverLocalAddr) <|
  andThen (.ok (decide (k.localPort = other.localPort))) <|
  andThen (k.remoteAddr.operatorEq other.remoteAddr) <|
  .ok (decide (k.remotePort = other.remotePort))

/-- The local port is written behind both local addresses. -/
def toString (k : QVPNServerSocketData) : String :=
  "(" ++ k.netProto.val.toNat.repr ++ "," ++ k.transportProto.val.toNat.repr ++
    ") (Client data:" ++ k.clientLocalAddr.toString ++ ":" ++ k.localPort.toNat.repr ++ "<=>" ++
    k.serverLocalAddr.toString ++ ":" ++ k.localPort.toNat.repr ++ ")-" ++
    k.remoteAddr.toString ++ ":" ++ k.remotePort.toNat.repr

/-- The addresses of a key. -/
def addrs (k : QVPNServerSocketData) : List NetAddr :=
  [k.clientLocalAddr, k.serverLocalAddr, k.remoteAddr]

end QVPNServerSocketData

/-- The key of a connection on the side of the client. -/
structure QVPNSocketData where
  netProto : NetProtocol
  transportProto : TransportProtocol
  localAddr : NetAddr
  localPort : UShort
  remoteAddr : NetAddr
  remotePort : UShort
  deriving DecidableEq, Repr

namespace QVPNSocketData

def operatorEq (k other : QVPNSocketData) : Except Fault Bool :=
  andThen (.ok (decide (k.netProto = other.netProto))) <|
  andThen (.ok (decide (k.transportProto = other.transportProto))) <|
  andThen (k.localAddr.operatorEq other.localAddr) <|
  andThen (.ok (decide (k.localPort = other.localPort))) <|
  andThen (k.remoteAddr.operatorEq other.remoteAddr) <|
  .ok (decide (k.remotePort = other.remotePort))

def toString (k : QVPNSocketData) : String :=
  "(" ++ k.netProto.val.toNat.repr ++ "," ++ k.transportProto.val.toNat.repr ++ ") " ++
    k.localAddr.toString ++ ":" ++ k.localPort.toNat.repr ++ "-" ++
    k.remoteAddr.toString ++ ":" ++ k.remotePort.toNat.repr

/-- The addresses of a key. -/
def addrs (k : QVPNSocketData) : List NetAddr := [k.localAddr, k.remoteAddr]

end QVPNSocketData

end QVPN
