import QVPN.Structures.AddrText

/-!
# What the parser of addresses accepts

The parser of addresses takes its texts apart and asks every part for a number, but neither for a
number that fits a byte nor for as many of them as an address has, and it never gets past two
colons. It does what a parser of addresses should do for four bytes in dotted decimals and for what
it rejects, and for nothing else.
-/

namespace QVPN

open Components Decimal

/-- Decimal components with a delimiter between them, for bytes. -/
def IsComponentText (delim : List Char) (s : String) (bytes : List UByte) : Prop :=
  ∃ comps, s.toList = delim.intercalate comps ∧
    List.Forall₂ (fun c (b : UByte) => IsDecimal c b.toNat) comps bytes

/-- The text of an address has four or sixteen decimal components, each of them a byte, with one of
the delimiters between them. -/
def IsAddressText (s : String) (bytes : List UByte) : Prop :=
  (IsComponentText ['.'] s bytes ∨ IsComponentText [':', ':'] s bytes) ∧
    (bytes.length = 4 ∨ bytes.length = 16)

/-- The parser accepts a text exactly as an address, and no array is too small for what it returns. -/
structure ParsesExactly (s : String) : Prop where
  accepts : ∀ bytes, Tools.parseNetAddr s = .ok bytes ↔ IsAddressText s bytes
  ipv4 : ∀ fault, IPv4Address.ofString s ≠ .error (.memory fault)
  ipv6 : ∀ fault, IPv6Address.ofString s ≠ .error (.memory fault)

/-- A text that is not read. With dots, one of the first sixteen components between them does not
begin with a number; without, there are two colons in a row or the text does not begin with one. -/
def Unreadable (s : String) : Prop :=
  if '.' ∈ s.toList then ∃ c ∈ (s.toList.splitOn '.').take 16, ∀ number, ¬IsNumeral c number
  else [':', ':'] <:+: s.toList ∨ ∀ number, ¬IsNumeral s.toList number

/-- Components become bytes when each of them begins with a number. -/
theorem exists_forall₂_readsAs_iff {comps : List (List Char)} :
    (∃ bytes, List.Forall₂ ReadsAs comps bytes) ↔ ∀ c ∈ comps, ∃ number, IsNumeral c number := by
  induction comps with
  | nil => exact iff_of_true ⟨[], .nil⟩ nofun
  | cons c comps ih =>
    rw [List.forall_mem_cons, ← ih, ← exists_readsAs_iff]
    constructor
    · intro ⟨bytes, h⟩
      cases h with
      | cons hc hcomps => exact ⟨⟨_, hc⟩, ⟨_, hcomps⟩⟩
    · intro ⟨⟨b, hc⟩, ⟨bytes, hcomps⟩⟩
      exact ⟨b :: bytes, .cons hc hcomps⟩

/-- The parser returns bytes for what is not unreadable. -/
theorem exists_parseNetAddr_iff {s : String} :
    (∃ bytes, Tools.parseNetAddr s = .ok bytes) ↔ ¬Unreadable s := by
  rw [Unreadable]
  split
  · next hdot =>
    simp only [Tools.parseNetAddr_of_dot hdot, exists_forall₂_readsAs_iff, not_exists, not_and,
      not_forall, not_not]
  · next hdot =>
    rw [not_or]
    by_cases hcolons : [':', ':'] <:+: s.toList
    · refine iff_of_false ?_ fun h => h.1 hcolons
      intro ⟨bytes, hbytes⟩
      exact Tools.parseNetAddr_of_colons hdot hcolons bytes hbytes
    · simp only [Tools.parseNetAddr_of_single hdot hcolons, exists_forall₂_readsAs_iff,
        List.forall_mem_singleton, hcolons, not_false_eq_true, true_and, not_forall, not_not]

/-- There are as many bytes as components, and no component has anything but digits. -/
theorem IsComponentText.exists_components {delim : List Char} {s : String} {bytes : List UByte}
    (h : IsComponentText delim s bytes) :
    ∃ comps, s.toList = delim.intercalate comps ∧ comps.length = bytes.length ∧
      List.Forall₂ ReadsAs comps bytes ∧ ∀ x : Char, x.isDigit = false → ∀ c ∈ comps, x ∉ c := by
  obtain ⟨comps, hs, hcomps⟩ := h
  refine ⟨comps, hs, hcomps.length_eq, hcomps.imp fun _ _ => readsAs_of_isDecimal, ?_⟩
  intro x hx c hc
  clear hs
  induction hcomps with
  | nil => cases hc
  | cons hdecimal _ ih =>
    cases hc with
    | head => exact hdecimal.not_mem hx
    | tail _ hc => exact ih hc

/-- Dotted decimals are parsed, up to sixteen of them. -/
theorem IsComponentText.parseNetAddr {s : String} {bytes : List UByte}
    (h : IsComponentText ['.'] s bytes) (htwo : 2 ≤ bytes.length) (hmax : bytes.length ≤ 16) :
    Tools.parseNetAddr s = .ok bytes := by
  obtain ⟨comps, hs, hlength, hreads, hdigits⟩ := h.exists_components
  exact (Tools.parseNetAddr_intercalate hs (hdigits '.' rfl) (by omega) (by omega)).mpr hreads

/-- Decimals with pairs of colons between them have no dot, and are unreadable. -/
theorem IsComponentText.unreadable {s : String} {bytes : List UByte}
    (h : IsComponentText [':', ':'] s bytes) (htwo : 2 ≤ bytes.length) : Unreadable s := by
  obtain ⟨comps, hs, hlength, -, hdigits⟩ := h.exists_components
  have hdot : '.' ∉ s.toList := by
    rw [hs]
    exact not_mem_intercalate (by decide) (hdigits '.' rfl)
  have hcolons : [':', ':'] <:+: s.toList := by
    rw [hs]
    exact infix_intercalate (by omega)
  rw [Unreadable, if_neg hdot]
  exact .inl hcolons

/-- An array is copied into without a fault when it has room for what the parser returns. -/
theorem copies_iff {size : ℕ} {s : String} :
    (∀ fault, addrOfString (AddrArray.ofRange : _ → Except Fault (AddrArray size)) s ≠
        .error (.memory fault)) ↔
      ∀ bytes, Tools.parseNetAddr s = .ok bytes → bytes.length ≤ size := by
  rw [addrOfString]
  cases Tools.parseNetAddr s with
  | error error => exact iff_of_true nofun nofun
  | ok vec =>
    by_cases hsize : vec.length ≤ size
    · dsimp only
      rw [AddrArray.ofRange, dif_pos hsize]
      refine iff_of_true nofun fun bytes hbytes => ?_
      rw [← Except.ok.inj hbytes]
      exact hsize
    · dsimp only
      rw [AddrArray.ofRange, dif_neg hsize]
      exact iff_of_false (fun h => h _ rfl) fun h => hsize (h vec rfl)

/-- Four dotted decimals are parsed as they should be. -/
theorem parsesExactly_of_dots {s : String} {bytes : List UByte} (hdots : IsComponentText ['.'] s bytes)
    (hlength : bytes.length = 4) : ParsesExactly s := by
  have hparsed := hdots.parseNetAddr (by omega) (by omega)
  have hreadable := exists_parseNetAddr_iff.mp ⟨bytes, hparsed⟩
  have hroom (size : ℕ) (hsize : 4 ≤ size) (bytes' : List UByte)
      (h : Tools.parseNetAddr s = .ok bytes') : bytes'.length ≤ size := by
    rw [← Except.ok.inj (hparsed.symm.trans h), hlength]
    exact hsize
  refine ⟨fun bytes' => ?_, copies_iff.mpr (hroom 4 (by decide)), copies_iff.mpr (hroom 16 (by decide))⟩
  constructor
  · intro h
    rw [← Except.ok.inj (hparsed.symm.trans h)]
    exact ⟨.inl hdots, .inl hlength⟩
  · intro ⟨htext, hlength'⟩
    obtain hdots' | hcolons := htext
    · exact hdots'.parseNetAddr (by omega) (by omega)
    · exact absurd (hcolons.unreadable (by omega)) hreadable

/-- What is unreadable and no address is rejected as it should be. -/
theorem parsesExactly_of_unreadable {s : String} (hunreadable : Unreadable s)
    (hno : ∀ bytes, ¬IsAddressText s bytes) : ParsesExactly s := by
  have hnot (bytes : List UByte) : Tools.parseNetAddr s ≠ .ok bytes := fun h =>
    exists_parseNetAddr_iff.mp ⟨bytes, h⟩ hunreadable
  exact ⟨fun bytes => iff_of_false (hnot bytes) (hno bytes),
    copies_iff.mpr fun bytes h => absurd h (hnot bytes),
    copies_iff.mpr fun bytes h => absurd h (hnot bytes)⟩

/-- The parser does with a text what it should exactly when the text is four dotted decimals, or is
unreadable and no address. -/
theorem parsesExactly_iff (s : String) :
    ParsesExactly s ↔
      (∃ bytes, IsComponentText ['.'] s bytes ∧ bytes.length = 4) ∨
        (Unreadable s ∧ ∀ bytes, ¬IsAddressText s bytes) := by
  constructor
  · intro ⟨haccepts, hipv4, _⟩
    by_cases hunreadable : Unreadable s
    · refine .inr ⟨hunreadable, fun bytes htext => ?_⟩
      exact exists_parseNetAddr_iff.mp ⟨bytes, (haccepts bytes).mpr htext⟩ hunreadable
    · obtain ⟨bytes, hbytes⟩ := exists_parseNetAddr_iff.mpr hunreadable
      obtain ⟨htext, hlength⟩ := (haccepts bytes).mp hbytes
      have hroom := copies_iff.mp hipv4 bytes hbytes
      obtain hdots | hcolons := htext
      · exact .inl ⟨bytes, hdots, by omega⟩
      · exact absurd (hcolons.unreadable (by omega)) hunreadable
  · intro h
    obtain ⟨bytes, hdots, hlength⟩ | ⟨hunreadable, hno⟩ := h
    · exact parsesExactly_of_dots hdots hlength
    · exact parsesExactly_of_unreadable hunreadable hno

/-- A single number is taken for an address, numbers are narrowed to bytes, a fifth number is written
behind the array for IPv4, and numbers with two colons between them are rejected. -/
theorem parser_not_exact :
    (Tools.parseNetAddr "7" = .ok [7] ∧ ¬ParsesExactly "7") ∧
      Tools.parseNetAddr "1.2.3.256" = .ok [1, 2, 3, 0] ∧
      (IPv4Address.ofString "1.2.3.4.5" = .error (.memory .outOfBounds) ∧
        ¬ParsesExactly "1.2.3.4.5") ∧
      Tools.parseNetAddr "1::2::3::4" = .error .invalidArgument ∧ ¬ParsesExactly "1::2::3::4" := by
  refine ⟨⟨rfl, fun h => ?_⟩, rfl, ⟨rfl, fun h => h.ipv4 _ rfl⟩, rfl, fun h => ?_⟩
  · obtain ⟨-, hlength⟩ := (h.accepts [7]).mp rfl
    exact absurd hlength (by decide)
  · have htext : IsAddressText "1::2::3::4" [1, 2, 3, 4] := by
      refine ⟨.inr ⟨[['1'], ['2'], ['3'], ['4']], rfl, ?_⟩, .inl rfl⟩
      exact .cons (isDecimal_toDigits 1) <| .cons (isDecimal_toDigits 2) <|
        .cons (isDecimal_toDigits 3) <| .cons (isDecimal_toDigits 4) .nil
    have hparsed := (h.accepts _).mpr htext
    cases hparsed

end QVPN
