import QVPN.Structures.SocketData

/-!
# Traffic filters

A client captures the packets that a filter string describes. The string is put together by three
operators from the strings of single tests. The operators change their left operand and return it;
in an expression that operand is always a temporary of the expression itself, so a filter is the
text it holds.
-/

namespace QVPN

/-- The text of a filter. -/
abbrev FilterText := List Char

namespace WinDivertTrafficFilterType

def operatorAnd (f t : FilterText) : FilterText :=
  if t = [] then f
  else if f = [] then t
  else f ++ " and ".toList ++ t

/-- An empty operand on either side gives the empty filter. -/
def operatorOr (f t : FilterText) : FilterText :=
  if f = [] then f
  else if t = [] then t
  else f ++ " or ".toList ++ t

/-- The exclamation mark goes before the first equality sign, or to the front. -/
def operatorNot (f : FilterText) : FilterText :=
  let eqPos := f.idxOf '='
  if eqPos < f.length then f.take eqPos ++ '!' :: f.drop eqPos else '!' :: f

end WinDivertTrafficFilterType

namespace WinDivertTrafficFilter

/-- A field compared with a value. -/
def fieldTest (field value : String) : FilterText := field.toList ++ " = ".toList ++ value.toList

/-- A field compared with an address, if the size of the address is known. -/
def addrTest (field field6 : String) (addr : NetAddr) : FilterText :=
  if addr.getAddrFamily = .IPv4 then fieldTest field addr.toString
  else if addr.getAddrFamily = .IPv6 then fieldTest field6 addr.toString
  else "Address type not supported".toList

def ipv4 : FilterText := "ip".toList

def ipv6 : FilterText := "ipv6".toList

def tcp : FilterText := "tcp".toList

def udp : FilterText := "udp".toList

def source (addr : NetAddr) : FilterText := addrTest "ip.SrcAddr" "ip6.SrcAddr" addr

def dest (addr : NetAddr) : FilterText := addrTest "ip.DstAddr" "ip6.DstAddr" addr

def srcPort (port : UInt) : FilterText :=
  fieldTest "tcp.SrcPort" port.toNat.repr ++ " || ".toList ++
    fieldTest "udp.SrcPort" port.toNat.repr

def dstPort (port : UInt) : FilterText :=
  fieldTest "tcp.DstPort" port.toNat.repr ++ " || ".toList ++
    fieldTest "udp.DstPort" port.toNat.repr

def tcpSrcPort (port : UInt) : FilterText := fieldTest "tcp.SrcPort" port.toNat.repr

def tcpDstPort (port : UInt) : FilterText := fieldTest "tcp.DstPort" port.toNat.repr

def udpSrcPort (port : UInt) : FilterText := fieldTest "udp.SrcPort" port.toNat.repr

def udpDstPort (port : UInt) : FilterText := fieldTest "udp.DstPort" port.toNat.repr

def customProtocol (protocol : UInt) : FilterText := fieldTest "protocol" protocol.toNat.repr

def outgoingTraffic : FilterText := "outbound".toList

def incomingTraffic : FilterText := "inbound".toList

def localTraffic : FilterText := "loopback".toList

end WinDivertTrafficFilter

/-- The tests a filter is built from. -/
inductive FilterAtom where
  | ipv4
  | ipv6
  | tcp
  | udp
  | source (addr : NetAddr)
  | dest (addr : NetAddr)
  | srcPort (port : UInt)
  | dstPort (port : UInt)
  | tcpSrcPort (port : UInt)
  | tcpDstPort (port : UInt)
  | udpSrcPort (port : UInt)
  | udpDstPort (port : UInt)
  | customProtocol (protocol : UInt)
  | outgoingTraffic
  | incomingTraffic
  | localTraffic
  deriving DecidableEq, Repr

def FilterAtom.text : FilterAtom → FilterText
  | .ipv4 => WinDivertTrafficFilter.ipv4
  | .ipv6 => WinDivertTrafficFilter.ipv6
  | .tcp => WinDivertTrafficFilter.tcp
  | .udp => WinDivertTrafficFilter.udp
  | .source addr => WinDivertTrafficFilter.source addr
  | .dest addr => WinDivertTrafficFilter.dest addr
  | .srcPort port => WinDivertTrafficFilter.srcPort port
  | .dstPort port => WinDivertTrafficFilter.dstPort port
  | .tcpSrcPort port => WinDivertTrafficFilter.tcpSrcPort port
  | .tcpDstPort port => WinDivertTrafficFilter.tcpDstPort port
  | .udpSrcPort port => WinDivertTrafficFilter.udpSrcPort port
  | .udpDstPort port => WinDivertTrafficFilter.udpDstPort port
  | .customProtocol protocol => WinDivertTrafficFilter.customProtocol protocol
  | .outgoingTraffic => WinDivertTrafficFilter.outgoingTraffic
  | .incomingTraffic => WinDivertTrafficFilter.incomingTraffic
  | .localTraffic => WinDivertTrafficFilter.localTraffic

/-- An expression over the operators. -/
inductive FilterExpr where
  | empty
  | atom (a : FilterAtom)
  | and (e₁ e₂ : FilterExpr)
  | or (e₁ e₂ : FilterExpr)
  | not (e : FilterExpr)
  deriving DecidableEq, Repr

/-- The text that the operators make of an expression. -/
def FilterExpr.text : FilterExpr → FilterText
  | .empty => []
  | .atom a => a.text
  | .and e₁ e₂ => WinDivertTrafficFilterType.operatorAnd e₁.text e₂.text
  | .or e₁ e₂ => WinDivertTrafficFilterType.operatorOr e₁.text e₂.text
  | .not e => WinDivertTrafficFilterType.operatorNot e.text

namespace WinDivertClientVPNNetDriver

/-- The filters of the client, joined by `&&`. -/
def calculateOutgoingFilters (filters : List FilterText) : FilterText :=
  filters.foldl WinDivertTrafficFilterType.operatorAnd []

/-- What the client captures unless it is told otherwise: not its own packets to the server. -/
def defaultOutgoingFilter (vpnAddress : NetAddr) : List FilterExpr :=
  [.not (.atom (.source vpnAddress)), .atom .outgoingTraffic, .not (.atom (.tcpDstPort 22)),
    .not (.atom .localTraffic), .atom (.dest ⟨[195, 82, 146, 78]⟩), .atom (.tcpDstPort 8080)]

end WinDivertClientVPNNetDriver

end QVPN
