import QVPN.Lib.BigEndian
import QVPN.Lib.Memory

/-!
# Base types

The fixed-width integers, protocol numbers, network addresses and TCP flag words shared by
every packet layout. Protocol enumerations have a fixed underlying byte type, and the code
casts arbitrary received bytes to them, so a value is the byte itself with the named
enumerators as constants.
-/

namespace QVPN

export Memory (Fault)

abbrev UByte := UInt8

abbrev UShort := UInt16

abbrev UInt := UInt32

/-- A property of all bytes can be checked on all bit vectors of width eight. -/
theorem forall_byte {p : UByte → Prop} (h : ∀ v : BitVec 8, p ⟨v⟩) (b : UByte) : p b :=
  h b.toBitVec

/-- The upper half of a byte is a nibble. -/
theorem highNibble_le (b : UByte) : (b >>> 4).toNat ≤ 15 := by
  revert b
  exact forall_byte (by decide +kernel)

/-- Nothing but its upper half is left of a shifted byte. -/
theorem highNibble_and (b : UByte) : b >>> 4 &&& (0xF : UByte) = b >>> 4 := by
  revert b
  exact forall_byte (by decide +kernel)

/-- The bits under a mask of a byte into which another one is or-ed. -/
theorem or_and (x y m : UByte) : (x ||| y) &&& m = x &&& m ||| y &&& m := by
  rw [← UInt8.toBitVec_inj]
  exact BitVec.and_or_distrib_right

/-- The lowest bit of a byte is clear or set. -/
theorem lowBit_cases (b : UByte) : b &&& 0x1 = 0 ∨ b &&& 0x1 = 1 := by
  revert b
  exact forall_byte (by decide +kernel)

/-- A network protocol number: any byte, with the enumerators the code names. -/
structure NetProtocol where
  val : UByte
  deriving DecidableEq, Repr

namespace NetProtocol

def IPv4 : NetProtocol := ⟨4⟩

def IPv6 : NetProtocol := ⟨6⟩

def NET_UNDEFINED : NetProtocol := ⟨255⟩

end NetProtocol

/-- A transport protocol number: any byte, with the enumerators the code names. -/
structure TransportProtocol where
  val : UByte
  deriving DecidableEq, Repr

namespace TransportProtocol

def TCP : TransportProtocol := ⟨6⟩

def UDP : TransportProtocol := ⟨17⟩

def TRANSPORT_UNDEFINED : TransportProtocol := ⟨255⟩

end TransportProtocol

/-- A network address is a byte vector of any size. -/
structure NetAddr where
  ip : List UByte
  deriving DecidableEq, Repr

namespace NetAddr

/-- The default address is sixteen zero bytes. -/
def default : NetAddr := ⟨List.replicate 16 0⟩

def getAddrSize (a : NetAddr) : ℕ := a.ip.length

/-- Four bytes are an IPv4 address and sixteen an IPv6 address. -/
def getAddrFamily (a : NetAddr) : NetProtocol :=
  if a.ip.length = 4 then .IPv4 else if a.ip.length = 16 then .IPv6 else .NET_UNDEFINED

/-- The first four bytes, read one by one. -/
def toIpv4 (a : NetAddr) : Except Fault (List UByte) := do
  let b0 ← Memory.readAt a.ip 0
  let b1 ← Memory.readAt a.ip 1
  let b2 ← Memory.readAt a.ip 2
  let b3 ← Memory.readAt a.ip 3
  return [b0, b1, b2, b3]

/-- The four bytes of an IPv4 address are the address. -/
theorem toIpv4_of_length (a : NetAddr) (h : a.ip.length = 4) : a.toIpv4 = .ok a.ip := by
  obtain ⟨ip⟩ := a
  match ip, h with
  | [_, _, _, _], _ => rfl

/-- An IPv4 address has four bytes. -/
theorem toIpv4_length {a : NetAddr} {bytes : List UByte} (h : a.toIpv4 = .ok bytes) :
    bytes.length = 4 := by
  obtain ⟨b0, -, h⟩ := Memory.bind_eq_ok_iff.mp h
  obtain ⟨b1, -, h⟩ := Memory.bind_eq_ok_iff.mp h
  obtain ⟨b2, -, h⟩ := Memory.bind_eq_ok_iff.mp h
  obtain ⟨b3, -, h⟩ := Memory.bind_eq_ok_iff.mp h
  cases Except.ok.inj h
  rfl

end NetAddr

/-- A 16-bit word of TCP flags: the NS flag is bit 8, the other eight fill the low byte. -/
structure TcpFlagsObject where
  flags : UShort
  deriving DecidableEq, Repr

namespace TcpFlagsObject

def getNs (f : TcpFlagsObject) : UByte := (f.flags >>> 8 &&& 0x1).toUInt8

def getCwr (f : TcpFlagsObject) : UByte := (f.flags >>> 7 &&& 0x1).toUInt8

def getEcn (f : TcpFlagsObject) : UByte := (f.flags >>> 6 &&& 0x1).toUInt8

def getUrg (f : TcpFlagsObject) : UByte := (f.flags >>> 5 &&& 0x1).toUInt8

def getAck (f : TcpFlagsObject) : UByte := (f.flags >>> 4 &&& 0x1).toUInt8

def getPsh (f : TcpFlagsObject) : UByte := (f.flags >>> 3 &&& 0x1).toUInt8

def getRst (f : TcpFlagsObject) : UByte := (f.flags >>> 2 &&& 0x1).toUInt8

def getSyn (f : TcpFlagsObject) : UByte := (f.flags >>> 1 &&& 0x1).toUInt8

def getFin (f : TcpFlagsObject) : UByte := (f.flags &&& 0x1).toUInt8

def getWithoutNs (f : TcpFlagsObject) : UByte := (f.flags &&& 0xFF).toUInt8

end TcpFlagsObject

/-- The key of a forwarded connection. -/
structure QVPNServerSocketData where
  netProto : NetProtocol
  transportProto : TransportProtocol
  clientLocalAddr : NetAddr
  serverLocalAddr : NetAddr
  localPort : UShort
  remoteAddr : NetAddr
  remotePort : UShort
  deriving DecidableEq, Repr

end QVPN
