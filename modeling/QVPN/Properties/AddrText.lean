import QVPN.Properties.AddrParser

/-!
# Addresses printed and parsed

An address of four or sixteen bytes is printed as dotted decimals and parsed back into its bytes,
unless it is of the class for IPv6. There the last character is cut away together with the last dot,
so that the last component loses a digit.
-/

namespace QVPN

open Components Decimal

/-- An address of four or of sixteen bytes. -/
def AddrSized {t : AddrType} (a : t.Carrier) : Prop :=
  (IsAddr.toBytes a).length = 4 ∨ (IsAddr.toBytes a).length = 16

/-- The text of an address is parsed into its bytes, makes the address, and is the text of no address
with other bytes. -/
structure RoundTrips {t : AddrType} (a : t.Carrier) : Prop where
  parsed : Tools.parseNetAddr (t.toString a) = .ok (IsAddr.toBytes a)
  constructed : t.ofString (t.toString a) = .ok a
  distinct : ∀ b : t.Carrier, AddrSized b → IsAddr.toBytes b ≠ IsAddr.toBytes a →
    t.toString b ≠ t.toString a

/-- The decimal digits of bytes, with dots between them. -/
def dottedDecimals (bytes : List UByte) : List Char :=
  ['.'].intercalate (bytes.map fun b => Nat.toDigits 10 b.toNat)

theorem isComponentText_dottedDecimals {s : String} {bytes : List UByte}
    (h : s.toList = dottedDecimals bytes) : IsComponentText ['.'] s bytes := by
  refine ⟨_, h, List.forall₂_map_left_iff.mpr (List.forall₂_same.mpr fun b _ => ?_)⟩
  exact isDecimal_toDigits b.toNat

/-- What the loop over the bytes of an address writes. -/
theorem join_eq {bytes : List UByte} (hne : bytes ≠ []) :
    (String.join (bytes.map fun b => b.toNat.repr ++ ".")).toList = dottedDecimals bytes ++ ['.'] := by
  have hbyte (b : UByte) : (b.toNat.repr ++ ".").toList = Nat.toDigits 10 b.toNat ++ ['.'] := by
    rw [String.toList_append, Nat.toList_repr]
    rfl
  rw [String.toList_join, List.flatMap_map]
  simp only [hbyte]
  exact flatMap_append_singleton _ hne

/-- The last dot is cut away. -/
theorem NetAddr.toString_toList {a : NetAddr} (hne : a.ip ≠ []) :
    a.toString.toList = dottedDecimals a.ip := by
  rw [NetAddr.toString, String.toList_ofList, join_eq hne, List.dropLast_concat]

theorem IPv4Address.toString_toList (a : IPv4Address) :
    (IPv4Address.toString a).toList = dottedDecimals a.ip := by
  obtain ⟨ip, hlength⟩ := a
  match ip, hlength with
  | [b0, b1, b2, b3], _ =>
    simp only [IPv4Address.toString, String.toList_append, Nat.toList_repr, dottedDecimals,
      List.map_cons, List.map_nil, List.intercalate_cons_cons, List.intercalate_singleton,
      List.append_assoc]
    rfl

/-- The last dot is cut away, and the last digit with it. -/
theorem IPv6Address.toString_toList {a : IPv6Address} {front : List UByte} {last : UByte}
    (hip : a.ip = front ++ [last]) :
    (IPv6Address.toString a).toList =
      ['.'].intercalate (front.map (fun b => Nat.toDigits 10 b.toNat) ++
        [(Nat.toDigits 10 last.toNat).dropLast]) := by
  have hne : a.ip ≠ [] := by
    rw [hip]
    exact List.append_ne_nil_of_right_ne_nil front (List.cons_ne_nil last [])
  have hcut (xs : List Char) : (xs ++ ['.']).take ((xs ++ ['.']).length - 2) = xs.dropLast := by
    rw [List.length_append, List.length_singleton, List.dropLast_eq_take,
      List.take_append_of_le_length (by omega)]
    rfl
  rw [IPv6Address.toString, String.toList_ofList, ← String.length_toList, join_eq hne, hcut,
    dottedDecimals, hip, List.map_append, List.map_singleton]
  exact dropLast_intercalate Nat.toDigits_ne_nil _

/-- Without its last digit a byte is read as another byte, or not at all. -/
theorem not_readsAs_dropLast (b : UByte) : ¬ReadsAs (Nat.toDigits 10 b.toNat).dropLast b := by
  intro h
  rw [dropLast_toDigits] at h
  split at h
  · obtain ⟨number, hnumber⟩ := exists_readsAs_iff.mp ⟨b, h⟩
    obtain ⟨c, tail, hnil, -⟩ := hnumber.head
    cases hnil
  · next hten =>
    have hbound := b.toNat_lt
    have hdiv : (UInt8.ofNat (b.toNat / 10)).toNat = b.toNat / 10 := by
      rw [UInt8.toNat_ofNat']
      omega
    have htenth : ReadsAs (Nat.toDigits 10 (b.toNat / 10)) (UInt8.ofNat (b.toNat / 10)) :=
      readsAs_of_isDecimal (hdiv.symm ▸ isDecimal_toDigits _)
    rw [← h.unique htenth] at hdiv
    omega

/-- The text of an address that is not of the class for IPv6. -/
theorem AddrType.toString_toList {t : AddrType} {a : t.Carrier} (ht : t ≠ .ipv6Address)
    (hne : IsAddr.toBytes a ≠ []) : (t.toString a).toList = dottedDecimals (IsAddr.toBytes a) := by
  cases t with
  | netAddr => exact NetAddr.toString_toList hne
  | ipv4Address => exact IPv4Address.toString_toList a
  | ipv6Address => exact absurd rfl ht

/-- An array is the copy of its own bytes. -/
theorem AddrArray.ofRange_ip {size : ℕ} (a : AddrArray size) :
    (AddrArray.ofRange a.ip : Except Fault (AddrArray size)) = .ok a := by
  obtain ⟨ip, hlength⟩ := a
  rw [AddrArray.ofRange, dif_pos hlength.le]
  simp [hlength]

/-- A text that is parsed into the bytes of an address makes the address. -/
theorem AddrType.ofString_of_parsed {t : AddrType} {a : t.Carrier} {s : String}
    (h : Tools.parseNetAddr s = .ok (IsAddr.toBytes a)) : t.ofString s = .ok a := by
  cases t with
  | netAddr =>
    rw [AddrType.ofString, NetAddr.ofString, addrOfString, h]
    rfl
  | ipv4Address =>
    rw [AddrType.ofString, IPv4Address.ofString, addrOfString, h]
    exact congrArg (Except.mapError AddrTextError.memory) (AddrArray.ofRange_ip a)
  | ipv6Address =>
    rw [AddrType.ofString, IPv6Address.ofString, addrOfString, h]
    exact congrArg (Except.mapError AddrTextError.memory) (AddrArray.ofRange_ip a)

/-- The text of an address of the class for IPv6 is not parsed into its bytes. -/
theorem IPv6Address.not_parsed (a : IPv6Address) :
    Tools.parseNetAddr (IPv6Address.toString a) ≠ .ok a.ip := by
  have hlength := a.ip_length
  have hne : a.ip ≠ [] := by
    rw [← List.length_pos_iff]
    omega
  have hip : a.ip = a.ip.dropLast ++ [a.ip.getLast hne] := (List.dropLast_append_getLast hne).symm
  generalize a.ip.dropLast = front at hip
  generalize a.ip.getLast hne = last at hip
  have hdigits (n : ℕ) : '.' ∉ Nat.toDigits 10 n := (isDecimal_toDigits n).not_mem rfl
  have hcomps : ∀ c ∈ front.map (fun b => Nat.toDigits 10 b.toNat) ++
      [(Nat.toDigits 10 last.toNat).dropLast], '.' ∉ c := by
    intro c hc
    obtain hc | hc := List.mem_append.mp hc
    · obtain ⟨b, -, rfl⟩ := List.mem_map.mp hc
      exact hdigits b.toNat
    · rw [List.mem_singleton.mp hc]
      exact fun hmem => hdigits last.toNat (List.mem_of_mem_dropLast hmem)
  rw [hip, List.length_append, List.length_singleton] at hlength
  rw [ne_eq, Tools.parseNetAddr_intercalate (IPv6Address.toString_toList hip) hcomps (by simp; omega)
    (by simp; omega), hip]
  intro h
  have hlast := List.forall₂_drop front.length h
  rw [List.drop_left' (List.length_map _), List.drop_left] at hlast
  cases hlast with
  | cons hlast _ => exact not_readsAs_dropLast last hlast

/-- An address of four or sixteen bytes makes the round trip through its text exactly when it is not
of the class for IPv6. -/
theorem roundTrips_iff (t : AddrType) (a : t.Carrier) (ha : AddrSized a) :
    RoundTrips a ↔ t ≠ .ipv6Address := by
  constructor
  · intro h ht
    subst ht
    exact IPv6Address.not_parsed a h.parsed
  · intro ht
    have hparsed (b : t.Carrier) (hb : AddrSized b) :
        Tools.parseNetAddr (t.toString b) = .ok (IsAddr.toBytes b) := by
      have hne : IsAddr.toBytes b ≠ [] := by
        rw [← List.length_pos_iff]
        obtain h | h := hb
        · omega
        · omega
      have htext := isComponentText_dottedDecimals (AddrType.toString_toList ht hne)
      obtain h | h := hb
      · exact htext.parseNetAddr (by omega) (by omega)
      · exact htext.parseNetAddr (by omega) (by omega)
    refine ⟨hparsed a ha, AddrType.ofString_of_parsed (hparsed a ha), fun b hb hbytes htext => ?_⟩
    have hsame := hparsed b hb
    rw [htext, hparsed a ha] at hsame
    exact hbytes (Except.ok.inj hsame).symm

/-- The address 127.0.0.1 makes the round trip. -/
theorem roundTrips_localhost : RoundTrips (t := .netAddr) ⟨[127, 0, 0, 1]⟩ :=
  (roundTrips_iff .netAddr ⟨[127, 0, 0, 1]⟩ (.inl rfl)).mpr (by decide)

/-- Fifteen zero bytes and a last one. -/
def endingWith (last : UByte) : IPv6Address := ⟨List.replicate 15 0 ++ [last], rfl⟩

/-- The text of zeros of the class for IPv6 is no address, and two addresses have one text, which
is that of a third one. -/
theorem ipv6_not_roundTrips :
    Tools.parseNetAddr (IPv6Address.toString (endingWith 0)) = .error .invalidArgument ∧
      IPv6Address.toString (endingWith 250) = IPv6Address.toString (endingWith 251) ∧
      IPv6Address.ofString (IPv6Address.toString (endingWith 250)) = .ok (endingWith 25) ∧
      ¬RoundTrips (t := .ipv6Address) (endingWith 0) := by
  refine ⟨rfl, String.toList_injective ?_, rfl, fun h => ?_⟩
  · rw [IPv6Address.toString_toList rfl, IPv6Address.toString_toList rfl]
    rfl
  · have hparsed := h.parsed
    cases hparsed

end QVPN
