import QVPN.Lib.Components
import QVPN.Lib.Decimal
import QVPN.Structures.Addr
import QVPN.Structures.SocketData

/-!
# Addresses as text

Every class of addresses is printed in decimal and made from a text by one parser. The parser looks
for a delimiter, converts the text up to it, and goes on one character behind its beginning, for at
most sixteen components. Its numbers are narrowed to bytes, and the bytes are copied into the array of
an address.
-/

namespace QVPN

open Components Decimal

/-- The loop of the parser, for at most the given number of components. -/
def Tools.parseComponents (delim : List Char) : ℕ → List Char → Except StoiError (List UByte)
  | 0, _ => .ok []
  | n + 1, rest =>
    match find delim rest with
    | none => do
      let number ← stoi rest
      return [UInt8.ofInt number]
    | some e => do
      let number ← stoi (rest.take e)
      let ip ← Tools.parseComponents delim n (rest.drop (e + 1))
      return UInt8.ofInt number :: ip

/-- The delimiter is a dot if there is one, and two colons otherwise. -/
def Tools.parseNetAddr (addr : String) : Except StoiError (List UByte) :=
  let delim := if find ['.'] addr.toList = none then [':', ':'] else ['.']
  Tools.parseComponents delim 16 addr.toList

/-- The byte that a component becomes. -/
def ReadsAs (c : List Char) (b : UByte) : Prop := ∃ number, stoi c = .ok number ∧ UInt8.ofInt number = b

/-- A number is narrowed modulo 256. -/
theorem byte_ofInt_toNat (n : ℕ) : (UInt8.ofInt n).toNat = n % 256 := by
  rw [UInt8.ofInt, UInt8.toNat_ofNat']
  omega

/-- A component becomes one byte only. -/
theorem ReadsAs.unique {c : List Char} {b b' : UByte} (h : ReadsAs c b) (h' : ReadsAs c b') :
    b = b' := by
  obtain ⟨number, hnumber, rfl⟩ := h
  obtain ⟨number', hnumber', rfl⟩ := h'
  rw [Except.ok.inj (hnumber.symm.trans hnumber')]

/-- A component becomes a byte when it begins with a number. -/
theorem exists_readsAs_iff {c : List Char} : (∃ b, ReadsAs c b) ↔ ∃ number, IsNumeral c number := by
  constructor
  · intro ⟨_, number, hnumber, _⟩
    exact ⟨number, stoi_eq_ok_iff.mp hnumber⟩
  · intro ⟨number, hnumber⟩
    exact ⟨_, number, stoi_eq_ok_iff.mpr hnumber, rfl⟩

/-- The decimal digits of a byte become the byte. -/
theorem readsAs_of_isDecimal {c : List Char} {b : UByte} (h : IsDecimal c b.toNat) : ReadsAs c b := by
  have hbound := b.toNat_lt
  refine ⟨b.toNat, stoi_of_isDecimal h (by omega), UInt8.toNat_inj.mp ?_⟩
  rw [byte_ofInt_toNat]
  omega

/-- The parser returns the bytes that its components become. -/
theorem Tools.parseComponents_eq_ok_iff {delim rest : List Char} {n : ℕ} {ip : List UByte} :
    Tools.parseComponents delim n rest = .ok ip ↔ List.Forall₂ ReadsAs (pieces delim n rest) ip := by
  induction n generalizing rest ip with
  | zero =>
    rw [Tools.parseComponents, pieces, List.forall₂_nil_left_iff, Except.ok.injEq, eq_comm]
  | succ n ih =>
    rw [Tools.parseComponents, pieces]
    cases find delim rest with
    | none =>
      simp only [Memory.bind_eq_ok_iff, List.forall₂_cons_left_iff, List.forall₂_nil_left_iff]
      constructor
      · rintro ⟨number, hnumber, hip⟩
        exact ⟨_, [], ⟨number, hnumber, rfl⟩, rfl, (Except.ok.inj hip).symm⟩
      · rintro ⟨_, _, ⟨number, hnumber, rfl⟩, rfl, hip⟩
        exact ⟨number, hnumber, congrArg _ hip.symm⟩
    | some e =>
      simp only [Memory.bind_eq_ok_iff, List.forall₂_cons_left_iff, ih]
      constructor
      · rintro ⟨number, hnumber, tail, htail, hip⟩
        exact ⟨_, tail, ⟨number, hnumber, rfl⟩, htail, (Except.ok.inj hip).symm⟩
      · rintro ⟨_, tail, ⟨number, hnumber, rfl⟩, htail, hip⟩
        exact ⟨number, hnumber, tail, htail, congrArg _ hip.symm⟩

/-- A text with dots is taken apart at its dots. -/
theorem Tools.parseNetAddr_of_dot {addr : String} {ip : List UByte} (hdot : '.' ∈ addr.toList) :
    Tools.parseNetAddr addr = .ok ip ↔
      List.Forall₂ ReadsAs ((addr.toList.splitOn '.').take 16) ip := by
  have hfind : find ['.'] addr.toList ≠ none := by
    rw [ne_eq, find_singleton_eq_none_iff, not_not]
    exact hdot
  rw [Tools.parseNetAddr, if_neg hfind, Tools.parseComponents_eq_ok_iff, pieces_singleton]

/-- Components with dots between them are found again. -/
theorem Tools.parseNetAddr_intercalate {addr : String} {comps : List (List Char)} {ip : List UByte}
    (haddr : addr.toList = ['.'].intercalate comps) (hcomps : ∀ c ∈ comps, '.' ∉ c)
    (htwo : 2 ≤ comps.length) (hmax : comps.length ≤ 16) :
    Tools.parseNetAddr addr = .ok ip ↔ List.Forall₂ ReadsAs comps ip := by
  have hdot : '.' ∈ addr.toList := by
    rw [haddr, ← List.singleton_infix_iff]
    exact infix_intercalate htwo
  have hne : comps ≠ [] := by
    rw [← List.length_pos_iff]
    omega
  rw [Tools.parseNetAddr_of_dot hdot, haddr, List.splitOn_intercalate _ hcomps hne,
    List.take_of_length_le hmax]

/-- Without a dot a text with two colons is no address, since the second of them is left to the
component behind them. -/
theorem Tools.parseNetAddr_of_colons {addr : String} (hdot : '.' ∉ addr.toList)
    (hcolons : [':', ':'] <:+: addr.toList) (ip : List UByte) :
    Tools.parseNetAddr addr ≠ .ok ip := by
  rw [Tools.parseNetAddr, if_pos (find_singleton_eq_none_iff.mpr hdot),
    ne_eq, Tools.parseComponents_eq_ok_iff]
  intro h
  cases hfind : find [':', ':'] addr.toList with
  | none => exact find_eq_none_iff.mp hfind hcolons
  | some i =>
    obtain ⟨second, rest, hpieces, hsecond⟩ := @exists_second_piece _ _ _ _ 14 _ hfind
    rw [hpieces] at h
    cases h with
    | cons _ h =>
      cases h with
      | cons h _ =>
        obtain ⟨number, hnumeral⟩ := exists_readsAs_iff.mp ⟨_, h⟩
        obtain ⟨c, tail, rfl, hhead⟩ := hnumeral.head
        obtain hnil | ⟨tail', hcolon⟩ := hsecond
        · cases hnil
        · cases (List.cons.inj hcolon).1
          revert hhead
          decide

/-- Without a dot or two colons a text is a single component. -/
theorem Tools.parseNetAddr_of_single {addr : String} {ip : List UByte} (hdot : '.' ∉ addr.toList)
    (hcolons : ¬[':', ':'] <:+: addr.toList) :
    Tools.parseNetAddr addr = .ok ip ↔ List.Forall₂ ReadsAs [addr.toList] ip := by
  rw [Tools.parseNetAddr, if_pos (find_singleton_eq_none_iff.mpr hdot),
    Tools.parseComponents_eq_ok_iff, pieces, find_eq_none_iff.mpr hcolons]

/-- Why no address is made from a text: a thrown error, or an illegal copy. -/
inductive AddrTextError where
  | thrown (error : StoiError)
  | memory (fault : Fault)
  deriving DecidableEq, Repr

/-- The constructors from a text copy what the parser returns. -/
def addrOfString {Addr : Type} (copy : List UByte → Except Fault Addr) (data : String) :
    Except AddrTextError Addr :=
  match Tools.parseNetAddr data with
  | .error error => .error (.thrown error)
  | .ok vec => (copy vec).mapError .memory

def NetAddr.ofString (data : String) : Except AddrTextError NetAddr := addrOfString NetAddr.ofRange data

namespace IPv4Address

def ofString (data : String) : Except AddrTextError IPv4Address :=
  addrOfString AddrArray.ofRange data

/-- Four numbers with dots between them. -/
def toString (a : IPv4Address) : String :=
  (a.ip.getD 0 0).toNat.repr ++ "." ++ (a.ip.getD 1 0).toNat.repr ++ "." ++
    (a.ip.getD 2 0).toNat.repr ++ "." ++ (a.ip.getD 3 0).toNat.repr

end IPv4Address

namespace IPv6Address

def ofString (data : String) : Except AddrTextError IPv6Address :=
  addrOfString AddrArray.ofRange data

/-- Every byte in decimal with a dot behind it; the last two characters are cut away. -/
def toString (a : IPv6Address) : String :=
  let temp := String.join (a.ip.map fun b => b.toNat.repr ++ ".")
  String.ofList (temp.toList.take (temp.length - 2))

end IPv6Address

namespace AddrType

/-- The text of an address. -/
def toString : (t : AddrType) → t.Carrier → String
  | .netAddr => NetAddr.toString
  | .ipv4Address => IPv4Address.toString
  | .ipv6Address => IPv6Address.toString

/-- The constructor from a text. -/
def ofString : (t : AddrType) → String → Except AddrTextError t.Carrier
  | .netAddr => NetAddr.ofString
  | .ipv4Address => IPv4Address.ofString
  | .ipv6Address => IPv6Address.ofString

end AddrType

end QVPN
