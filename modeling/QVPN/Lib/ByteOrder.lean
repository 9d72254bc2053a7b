import QVPN.Lib.BigEndian

/-!
# Words in the byte order of a machine

A machine stores the bytes of a word in one of two orders. A word that is loaded and stored keeps
its bytes, and a word that is converted to network order is stored most significant byte first,
whichever order the machine has.
-/

open BigEndian

/-- The order in which a machine stores the bytes of a word. -/
inductive ByteOrder where
  | little
  | big
  deriving DecidableEq, Repr

namespace ByteOrder

/-- The bytes in memory, most significant first for a big machine. -/
def arrange : ByteOrder → List UInt8 → List UInt8
  | .little, bytes => bytes.reverse
  | .big, bytes => bytes

def store16 (order : ByteOrder) (v : UInt16) : List UInt8 := order.arrange (bytes16 v)

def store32 (order : ByteOrder) (v : UInt32) : List UInt8 := order.arrange (bytes32 v)

def load16 : ByteOrder → UInt8 → UInt8 → UInt16
  | .little, a, b => join b a
  | .big, a, b => join a b

def load32 : ByteOrder → UInt8 → UInt8 → UInt8 → UInt8 → UInt32
  | .little, a, b, c, d => join32 d c b a
  | .big, a, b, c, d => join32 a b c d

/-- The word that is stored as the network sees the value. -/
def htons (order : ByteOrder) (v : UInt16) : UInt16 := order.load16 (hi v) (lo v)

/-- The double word that is stored as the network sees the value. -/
def htonl (order : ByteOrder) (v : UInt32) : UInt32 :=
  order.load32 (v >>> 24).toUInt8 (v >>> 16).toUInt8 (v >>> 8).toUInt8 v.toUInt8

/-- A loaded word is stored as it was. -/
@[simp] theorem store16_load16 (order : ByteOrder) (a b : UInt8) :
    order.store16 (order.load16 a b) = [a, b] := by
  cases order <;> simp [store16, load16, arrange, bytes16]

/-- A loaded double word is stored as it was. -/
@[simp] theorem store32_load32 (order : ByteOrder) (a b c d : UInt8) :
    order.store32 (order.load32 a b c d) = [a, b, c, d] := by
  cases order <;> simp [store32, load32, arrange]

/-- A word in network order is stored most significant byte first. -/
@[simp] theorem store16_htons (order : ByteOrder) (v : UInt16) :
    order.store16 (order.htons v) = bytes16 v := store16_load16 order _ _

/-- A double word in network order is stored most significant byte first. -/
@[simp] theorem store32_htonl (order : ByteOrder) (v : UInt32) :
    order.store32 (order.htonl v) = bytes32 v := store32_load32 order _ _ _ _

end ByteOrder
