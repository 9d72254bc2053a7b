import QVPN.Lib.ByteOrder
import QVPN.Structures.Types

/-!
# The socket filter

A raw socket of the server is filtered in the kernel. The program writes the key of its connection
into a map; the filter builds a key from every packet and accepts the packet if the map has it. Keys
are compared as the bytes of packed structures in the byte order of the machine.
-/

namespace QVPN

open BigEndian

namespace NetAddr

/-- The number of an IPv4 address, and zero for any other address. -/
def toUint (a : NetAddr) : UInt :=
  match a.ip with
  | [b0, b1, b2, b3] => join32 b0 b1 b2 b3
  | _ => 0

end NetAddr

/-- The key of the filter, the same structure in the program and in the kernel. -/
structure FilterKey where
  netProto : UByte
  transportProto : UByte
  srcIp : UInt
  srcPort : UShort
  dstIp : UInt
  dstPort : UShort
  deriving DecidableEq, Repr

/-- The packed bytes of a key. -/
def FilterKey.bytes (order : ByteOrder) (key : FilterKey) : List UByte :=
  [key.netProto, key.transportProto] ++ order.store32 key.srcIp ++ order.store16 key.srcPort ++
    order.store32 key.dstIp ++ order.store16 key.dstPort

/-- The key of a connection of the server. What arrives comes from the remote end. The fields of the
addresses keep what they held unless the connection is one of IPv4. -/
def QVPNSocketFilter.ofServerSocketData (order : ByteOrder) (filter : FilterKey)
    (sData : QVPNServerSocketData) : FilterKey where
  netProto := sData.netProto.val
  transportProto := sData.transportProto.val
  srcIp := if sData.netProto = .IPv4 then order.htonl sData.remoteAddr.toUint else filter.srcIp
  srcPort := order.htons sData.remotePort
  dstIp := if sData.netProto = .IPv4 then order.htonl sData.serverLocalAddr.toUint else filter.dstIp
  dstPort := order.htons sData.localPort

/-- A map with a single entry, whose value is the byte of `true`. -/
def filterMap (order : ByteOrder) (filter : FilterKey) (key : List UByte) : Option UByte :=
  if key = filter.bytes order then some 1 else none

/-- The bytes of a range of the packet, if all of them are there. -/
def bpfSkbLoadBytes (skb : List UByte) (offset len : ℕ) : Option (List UByte) :=
  if offset + len ≤ skb.length then some ((skb.drop offset).take len) else none

namespace Iphdr

/-- The bytes of the structure. -/
def size : ℕ := 20

def version (ip : List UByte) : UByte := ip.getD 0 0 >>> 4

def protocol (ip : List UByte) : UByte := ip.getD 9 0

def saddr (order : ByteOrder) (ip : List UByte) : UInt :=
  order.load32 (ip.getD 12 0) (ip.getD 13 0) (ip.getD 14 0) (ip.getD 15 0)

def daddr (order : ByteOrder) (ip : List UByte) : UInt :=
  order.load32 (ip.getD 16 0) (ip.getD 17 0) (ip.getD 18 0) (ip.getD 19 0)

end Iphdr

/-- The headers of TCP and UDP begin with their ports. -/
def transportPorts (order : ByteOrder) (header : List UByte) : UShort × UShort :=
  (order.load16 (header.getD 0 0) (header.getD 1 0),
    order.load16 (header.getD 2 0) (header.getD 3 0))

/-- The size of the structure that the filter loads for a protocol. -/
def transportHeaderSize (transport : UByte) : ℕ :=
  if transport = TransportProtocol.TCP.val then 20
  else if transport = TransportProtocol.UDP.val then 8
  else 0

/-- The ports of a packet, which are zero for other protocols than TCP and UDP. The transport header
is loaded behind the structure of the network header, not behind the header. -/
def loadPorts (order : ByteOrder) (skb : List UByte) (transport : UByte) :
    Option (UShort × UShort) :=
  if transport = TransportProtocol.TCP.val ∨ transport = TransportProtocol.UDP.val then
    (bpfSkbLoadBytes skb Iphdr.size (transportHeaderSize transport)).map (transportPorts order)
  else some (0, 0)

/-- The filter for IPv4. A packet is accepted with minus one and rejected with zero. -/
def filterByAddrPortIpv4 (order : ByteOrder) (lookup : List UByte → Option UByte)
    (skb : List UByte) : ℤ :=
  match bpfSkbLoadBytes skb 0 Iphdr.size with
  | none => 0
  | some ip =>
    match loadPorts order skb (Iphdr.protocol ip) with
    | none => 0
    | some (srcPort, dstPort) =>
      let key : FilterKey := ⟨Iphdr.version ip, Iphdr.protocol ip, Iphdr.saddr order ip, srcPort,
        Iphdr.daddr order ip, dstPort⟩
      match lookup (key.bytes order) with
      | some valid => if valid ≠ 0 then -1 else 0
      | none => 0

/-- The filter rejects whatever is not a packet of IPv4. -/
def filterByAddrPort (order : ByteOrder) (lookup : List UByte → Option UByte) (skb : List UByte) :
    ℤ :=
  match bpfSkbLoadBytes skb 0 Iphdr.size with
  | none => 0
  | some ip => if Iphdr.version ip = 4 then filterByAddrPortIpv4 order lookup skb else 0

end QVPN
