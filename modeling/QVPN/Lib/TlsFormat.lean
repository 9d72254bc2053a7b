import QVPN.Lib.Prefixed

/-!
# What the format of TLS shows of a connection

Someone who sees the bytes that a client sends over a connection, and has no key, reads its records:
the hello in the first one, with the names of the hosts that the client asks for, and behind it
records of application data, of which only the size is known.

The readers below accept what keeps to the format: no length leaves anything over, records and ids
keep their limits, what must not be empty is not, and no extension comes twice. They do not judge
whether a server would accept the values.
-/

namespace TlsFormat

open Prefixed

structure Extension where
  type : ℕ
  data : List UInt8
  deriving DecidableEq, Repr

structure ClientHello where
  version : ℕ
  random : List UInt8
  session : List UInt8
  ciphers : List ℕ
  compressions : List UInt8
  extensions : List Extension
  deriving DecidableEq, Repr

structure Record where
  type : ℕ
  fragment : List UInt8
  deriving DecidableEq, Repr

/-- What is visible of a connection: the hello, and the fragments of application data. -/
structure Visit where
  hello : ClientHello
  data : List (List UInt8)
  deriving DecidableEq, Repr

def extension : Reader Extension := do
  let type ← number 2
  let data ← vector 2
  return ⟨type, data⟩

def clientHello : Reader ClientHello := do
  let version ← number 2
  let random ← bytes 32
  let session ← vector 1
  guard (session.length ≤ 32)
  let ciphers ← within 2 (sequence (number 2))
  guard (ciphers ≠ [])
  let compressions ← vector 1
  guard (compressions ≠ [])
  let extensions ← within 2 (sequence extension)
  guard (extensions.map Extension.type).Nodup
  return ⟨version, random, session, ciphers, compressions, extensions⟩

/-- The name of a host; there is one type of names. -/
def serverName : Reader (List UInt8) := do
  let type ← number 1
  guard (type = 0)
  let name ← vector 2
  guard (name ≠ [])
  return name

namespace ClientHello

/-- The data of the extension of a type. -/
def find (hello : ClientHello) (type : ℕ) : Option (List UInt8) :=
  (hello.extensions.find? fun ext => ext.type = type).map Extension.data

/-- The hosts that the client asks for. -/
def serverNames (hello : ClientHello) : Option (List (List UInt8)) :=
  (hello.find 0).bind (whole (within 2 (sequence serverName)))

/-- The versions that the client supports. -/
def versions (hello : ClientHello) : Option (List ℕ) :=
  (hello.find 43).bind (whole (within 1 (sequence (number 2))))

end ClientHello

def handshake : Reader ClientHello := do
  let type ← number 1
  guard (type = 1)
  within 3 (whole clientHello)

/-- A record of at most the size of an encrypted one. -/
def record : Reader Record := do
  let type ← number 1
  let version ← number 2
  guard (version = 0x0303)
  let fragment ← vector 2
  guard (fragment.length ≤ 16640)
  return ⟨type, fragment⟩

/-- The fragments, if all records are application data. -/
def applicationData (records : List Record) : Option (List (List UInt8)) :=
  if ∀ r ∈ records, r.type = 23 then some (records.map Record.fragment) else none

/-- A hello in a record of its own, and application data behind it. -/
def visitOf : List Record → Option Visit
  | [] => none
  | first :: later => do
    guard (first.type = 22 ∧ first.fragment.length ≤ 16384)
    let hello ← whole handshake first.fragment
    let data ← applicationData later
    return ⟨hello, data⟩

/-- What is visible of the bytes that a client sends over one connection. -/
def visit (stream : List UInt8) : Option Visit := (sequence record stream).bind visitOf

/-- What is visible of them if there is no hello. -/
def withoutHello (stream : List UInt8) : Option (List (List UInt8)) :=
  (sequence record stream).bind applicationData

theorem takes_byte (b : UInt8) : Takes (number 1) [b] b.toNat := by
  rw [← value_byte]
  exact takes_number rfl

theorem takes_extension {type digits data : List UInt8} (htype : type.length = 2)
    (hdigits : digits.length = 2) (hvalue : value digits = data.length) :
    Takes extension (type ++ (digits ++ data)) ⟨value type, data⟩ := by
  apply (takes_number htype).bind
  exact (takes_vector hdigits hvalue).last (Takes.pure _)

theorem takes_serverName {digits name : List UInt8} (hdigits : digits.length = 2)
    (hvalue : value digits = name.length) (hname : name ≠ []) :
    Takes serverName ([0] ++ (digits ++ name)) name := by
  apply (takes_byte 0).bind
  apply Takes.require rfl
  apply (takes_vector hdigits hvalue).last
  exact Takes.require hname (Takes.pure name)

theorem takes_record {type : UInt8} {digits fragment : List UInt8} (hdigits : digits.length = 2)
    (hvalue : value digits = fragment.length) (hsize : fragment.length ≤ 16640) :
    Takes record ([type] ++ ([3, 3] ++ (digits ++ fragment))) ⟨type.toNat, fragment⟩ := by
  have hversion : Takes (number 2) [3, 3] 0x0303 := takes_number rfl
  apply (takes_byte type).bind
  apply hversion.bind
  apply Takes.require rfl
  apply (takes_vector hdigits hvalue).last
  exact Takes.require hsize (Takes.pure _)

theorem takes_handshake {digits body : List UInt8} {hello : ClientHello}
    (hdigits : digits.length = 3) (hvalue : value digits = body.length)
    (hhello : Takes clientHello body hello) :
    Takes handshake ([1] ++ (digits ++ body)) hello := by
  apply (takes_byte 1).bind
  apply Takes.require rfl
  exact takes_within hdigits hvalue hhello.whole

/-- A hello is written field by field, the last four behind the digits of their lengths. -/
theorem takes_clientHello {version random idDigits id cipherDigits cipherBytes compressionDigits
      compressions extensionDigits extensionBytes : List UInt8} {ciphers : List ℕ}
    {extensions : List Extension} (hversion : version.length = 2) (hrandom : random.length = 32)
    (hidDigits : idDigits.length = 1) (hid : value idDigits = id.length) (hidSize : id.length ≤ 32)
    (hcipherDigits : cipherDigits.length = 2) (hcipher : value cipherDigits = cipherBytes.length)
    (hciphers : sequence (number 2) cipherBytes = some ciphers) (hsomeCipher : ciphers ≠ [])
    (hcompressionDigits : compressionDigits.length = 1)
    (hcompression : value compressionDigits = compressions.length)
    (hsomeCompression : compressions ≠ []) (hextensionDigits : extensionDigits.length = 2)
    (hextension : value extensionDigits = extensionBytes.length)
    (hextensions : sequence extension extensionBytes = some extensions)
    (hnodup : (extensions.map Extension.type).Nodup) :
    Takes clientHello (version ++ (random ++ ((idDigits ++ id) ++ ((cipherDigits ++ cipherBytes) ++
        ((compressionDigits ++ compressions) ++ (extensionDigits ++ extensionBytes))))))
      ⟨value version, random, id, ciphers, compressions, extensions⟩ := by
  apply (takes_number hversion).bind
  apply (takes_bytes hrandom).bind
  apply (takes_vector hidDigits hid).bind
  apply Takes.require hidSize
  apply (takes_within hcipherDigits hcipher hciphers).bind
  apply Takes.require hsomeCipher
  apply (takes_vector hcompressionDigits hcompression).bind
  apply Takes.require hsomeCompression
  apply (takes_within hextensionDigits hextension hextensions).last
  exact Takes.require hnodup (Takes.pure _)

/-- The fragments of records that are all application data. -/
theorem applicationData_map (fragments : List (List UInt8)) :
    applicationData (fragments.map (Record.mk 23)) = some fragments := by
  have hall : ∀ r ∈ fragments.map (Record.mk 23), r.type = 23 := by
    intro r hr
    obtain ⟨fragment, -, rfl⟩ := List.mem_map.mp hr
    rfl
  rw [applicationData, if_pos hall, List.map_map]
  exact congrArg some (List.map_id fragments)

/-- A hello followed by application data is a visit. -/
theorem visitOf_cons {message : List UInt8} {hello : ClientHello} (hsize : message.length ≤ 16384)
    (hhello : Takes handshake message hello) (fragments : List (List UInt8)) :
    visitOf (⟨22, message⟩ :: fragments.map (Record.mk 23)) = some ⟨hello, fragments⟩ := by
  rw [visitOf, guard, if_pos ⟨rfl, hsize⟩]
  dsimp only
  rw [hhello.whole, applicationData_map]
  rfl

end TlsFormat
