import QVPN.Structures.Hello

/-!
# Handshake messages

A handshake message is a type, a length of three bytes and a body. One class copies the bytes of a
message, the other keeps a position in memory; each takes the length from the bytes themselves and
ignores the end it is given.
-/

namespace QVPN

open BigEndian Memory

/-- A handshake message held by value. -/
structure TLS13MessageLittleEndian where
  data : List UByte
  deriving DecidableEq, Repr

namespace TLS13MessageLittleEndian

/-- The length is read in the vector of the object, which is empty until the copy is made. -/
def ofRange (mem : List UByte) (b : ℕ) : Except Fault TLS13MessageLittleEndian := do
  let length ← TLS13MessageView.getTlsMsgFullLength [] 0
  let data ← slice mem b (b + length.toNat)
  return ⟨data⟩

def getTlsMsgType (p : TLS13MessageLittleEndian) : Except Fault UByte := readAt p.data 0

def getTlsMsgLength (p : TLS13MessageLittleEndian) : Except Fault UInt :=
  TLS13MessageView.getTlsMsgLength p.data 0

def getTlsMsgData (p : TLS13MessageLittleEndian) : Except Fault (List UByte) :=
  slice p.data 4 p.data.length

end TLS13MessageLittleEndian

/-- A handshake message in place. -/
structure TLS13MessageView where
  mem : List UByte
  data : ℕ
  size : UInt
  deriving DecidableEq, Repr

namespace TLS13MessageView

def ofRange (mem : List UByte) (b : ℕ) : Except Fault TLS13MessageView := do
  let size ← getTlsMsgFullLength mem b
  return ⟨mem, b, size⟩

def getMsgType (p : TLS13MessageView) : Except Fault UByte := readAt p.mem p.data

def getMsgLength (p : TLS13MessageView) : Except Fault UInt := getTlsMsgLength p.mem p.data

def getTlsMsgData (p : TLS13MessageView) : Except Fault (List UByte) :=
  slice p.mem (p.data + 4) (p.data + p.size.toNat)

end TLS13MessageView

end QVPN
