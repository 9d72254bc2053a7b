import QVPN.Structures.Types

/-!
# Addresses of fixed size

Beside the address of any size the code has one class for each family, an array that bytes are
copied into. Whatever sends an address asks three things of its type: the number of bytes it
announces, the bytes it has, and how it is made from a range of bytes.
-/

namespace QVPN

/-- The bytes of an array. -/
structure AddrArray (size : ℕ) where
  ip : List UByte
  ip_length : ip.length = size
  deriving DecidableEq, Repr

namespace AddrArray

variable {size : ℕ}

/-- The default address is all zeros. -/
def default : AddrArray size := ⟨List.replicate size 0, List.length_replicate⟩

/-- Bytes are copied over the first bytes of an array of zeros, which must have room for them. -/
def ofRange (bytes : List UByte) : Except Fault (AddrArray size) :=
  if h : bytes.length ≤ size then
    .ok ⟨bytes ++ List.replicate (size - bytes.length) 0, by simp [h]⟩
  else .error .outOfBounds

end AddrArray

abbrev IPv4Address := AddrArray 4

abbrev IPv6Address := AddrArray 16

namespace IPv4Address

def getAddrFamily (_ : IPv4Address) : NetProtocol := .IPv4

def getAddrSize (_ : IPv4Address) : ℕ := 4

def toBytes (a : IPv4Address) : List UByte := a.ip

end IPv4Address

namespace IPv6Address

def getAddrFamily (_ : IPv6Address) : NetProtocol := .IPv6

/-- The announced size is not the size of the array. -/
def getAddrSize (_ : IPv6Address) : ℕ := 6

def toBytes (a : IPv6Address) : List UByte := a.ip

end IPv6Address

namespace NetAddr

/-- Bytes are appended to an empty vector. -/
def ofRange (bytes : List UByte) : Except Fault NetAddr := .ok ⟨bytes⟩

def toBytes (a : NetAddr) : List UByte := a.ip

end NetAddr

/-- The types of addresses. -/
inductive AddrType where
  | netAddr
  | ipv4Address
  | ipv6Address
  deriving DecidableEq, Repr

namespace AddrType

/-- The values of a type of addresses. -/
def Carrier : AddrType → Type
  | .netAddr => NetAddr
  | .ipv4Address => IPv4Address
  | .ipv6Address => IPv6Address

end AddrType

/-- What is asked of an address. -/
class IsAddr (Addr : Type) where
  default : Addr
  ofRange : List UByte → Except Fault Addr
  getAddrSize : Addr → ℕ
  toBytes : Addr → List UByte

instance : IsAddr NetAddr := ⟨.default, NetAddr.ofRange, NetAddr.getAddrSize, NetAddr.toBytes⟩

instance : IsAddr IPv4Address :=
  ⟨.default, AddrArray.ofRange, IPv4Address.getAddrSize, IPv4Address.toBytes⟩

instance : IsAddr IPv6Address :=
  ⟨.default, AddrArray.ofRange, IPv6Address.getAddrSize, IPv6Address.toBytes⟩

instance (t : AddrType) : IsAddr t.Carrier :=
  match t with
  | .netAddr => inferInstanceAs (IsAddr NetAddr)
  | .ipv4Address => inferInstanceAs (IsAddr IPv4Address)
  | .ipv6Address => inferInstanceAs (IsAddr IPv6Address)

/-- The size that an address announces is the number of its bytes, unless it is of the class for
IPv6, which always announces six. -/
theorem AddrType.getAddrSize_eq {t : AddrType} (a : t.Carrier) :
    IsAddr.getAddrSize a = if t = .ipv6Address then 6 else (IsAddr.toBytes a).length := by
  cases t with
  | netAddr => rfl
  | ipv4Address => exact (AddrArray.ip_length a).symm
  | ipv6Address => rfl

/-- The class for IPv6 has sixteen bytes. -/
theorem IPv6Address.toBytes_length (a : AddrType.Carrier .ipv6Address) :
    (IsAddr.toBytes a).length = 16 := AddrArray.ip_length a

/-- Addresses that are made from equally many bytes have equally many bytes. -/
theorem AddrType.toBytes_length_eq {t : AddrType} {xs ys : List UByte} {a b : t.Carrier}
    (ha : IsAddr.ofRange xs = .ok a) (hb : IsAddr.ofRange ys = .ok b)
    (hlength : xs.length = ys.length) :
    (IsAddr.toBytes a).length = (IsAddr.toBytes b).length := by
  cases t with
  | netAddr =>
    cases Except.ok.inj ha
    cases Except.ok.inj hb
    exact hlength
  | ipv4Address => exact (AddrArray.ip_length a).trans (AddrArray.ip_length b).symm
  | ipv6Address => exact (AddrArray.ip_length a).trans (AddrArray.ip_length b).symm

end QVPN
