import QVPN.Structures.TcpSetters
import QVPN.Structures.UdpGetters

/-!
# Objects that are used again

A header held by value can be given new data, any number of times. The packets by value serialise
themselves into a vector of their own, which is kept between the calls.
-/

namespace QVPN

open Memory

/-- Everything up to the given end is appended to what the vector holds. -/
def UdpPacketLittleEndian.setData (p : UdpPacketLittleEndian) (mem : List UByte) (size : ℤ) :
    Except Fault UdpPacketLittleEndian := do
  let header ← slice mem 0 size
  return ⟨p.header ++ header⟩

/-- An object that is given data one after the other. -/
def TcpPacketLittleEndian.refill (mems : List (List UByte)) : Except Fault TcpPacketLittleEndian :=
  mems.foldlM setData ⟨[]⟩

def UdpPacketLittleEndian.refill (ranges : List (List UByte × ℤ)) :
    Except Fault UdpPacketLittleEndian :=
  ranges.foldlM (fun p range => p.setData range.1 range.2) ⟨[]⟩

/-- A TCP segment by value; `data` holds what `bytes` returned last. -/
structure NoNetPacketTcpFatObject where
  transport : TcpPacketLittleEndian
  payload : List UByte
  data : List UByte
  deriving DecidableEq, Repr

namespace NoNetPacketTcpFatObject

def ofBytes (mem : List UByte) (size : ℕ) : Except Fault NoNetPacketTcpFatObject := do
  let transport ← TcpPacketLittleEndian.parsePacket mem
  let payload ← slice mem transport.getSize.toNat size
  return ⟨transport, payload, []⟩

/-- Both parts are appended to what the vector holds. -/
def bytes (p : NoNetPacketTcpFatObject) : List UByte × NoNetPacketTcpFatObject :=
  let data := p.data ++ p.transport.header ++ p.payload
  (data, { p with data })

end NoNetPacketTcpFatObject

/-- The packets by value. -/
inductive FatPacketObject where
  | fullTcp (p : Ipv4TcpFatPacket)
  | fullUdp (p : Ipv4UdpFatPacket)
  | noNetTcp (p : NoNetPacketTcpFatObject)
  | noNetUdp (p : NoNetPacketUdpFatObject)
  deriving DecidableEq, Repr

namespace FatPacketObject

def bytes : FatPacketObject → List UByte × FatPacketObject
  | fullTcp p => (p.bytes.1, fullTcp p.bytes.2)
  | fullUdp p => (p.bytes.1, fullUdp p.bytes.2)
  | noNetTcp p => (p.bytes.1, noNetTcp p.bytes.2)
  | noNetUdp p => (p.bytes.1, noNetUdp p.bytes.2)

/-- The network header, if there is one, the transport header and the payload. -/
def content : FatPacketObject → List UByte
  | fullTcp p => p.net.header ++ p.transport.header ++ p.payload
  | fullUdp p => p.net.header ++ p.transport.header ++ p.payload
  | noNetTcp p => p.transport.header ++ p.payload
  | noNetUdp p => p.transport.header ++ p.payload

/-- What the vector of the object holds. -/
def data : FatPacketObject → List UByte
  | fullTcp p => p.data
  | fullUdp p => p.data
  | noNetTcp p => p.data
  | noNetUdp p => p.data

end FatPacketObject

end QVPN
