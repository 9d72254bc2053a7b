import QVPN.Structures.Tcp

/-!
# TCP options, copied and in place

Both classes of TCP options print them by the loop over their bytes, once for the bytes they hold
and once for a range of bytes that is given to them. They differ in what bounds the loop.
-/

namespace QVPN

open Memory

/-- TCP options held by value. -/
structure TcpOptionsObject where
  data : List UByte
  deriving DecidableEq, Repr

namespace TcpOptionsObject

/-- Nothing lies behind the options in memory. -/
def toTcpOptionsFriendlyView (p : TcpOptionsObject) : Except Fault (List (UByte × UShort)) :=
  TcpOptionsView.walk p.data p.data.length (p.data.length + 1) 0

def toTcpOptionsFriendlyViewOfRange (mem : List UByte) (size : ℤ) :
    Except Fault (List (UByte × UShort)) :=
  TcpOptionsView.walk mem (TcpOptionsView.sizeBound size) (mem.length + 1) 0

end TcpOptionsObject

/-- TCP options in place: the memory from their first byte and their length in sixteen bits. -/
structure TcpOptionsView where
  data : List UByte
  length : UShort
  deriving DecidableEq, Repr

namespace TcpOptionsView

/-- The distance between the ends of the range is narrowed. -/
def ofRange (mem : List UByte) (size : ℤ) : TcpOptionsView := ⟨mem, UInt16.ofInt size⟩

def toTcpOptionsFriendlyViewOfView (v : TcpOptionsView) : Except Fault (List (UByte × UShort)) :=
  walk v.data v.length.toNat (v.data.length + 1) 0

end TcpOptionsView

end QVPN
