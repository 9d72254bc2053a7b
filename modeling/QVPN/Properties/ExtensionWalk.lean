import QVPN.Lib.Lens
import QVPN.Structures.ClientHello

/-!
# The walk over the extensions of a hello

The server names of a hello are looked up by walking over its extensions. The walk goes on by a
16-bit sum of the length of an extension and the length of its header, and reads the whole header
before it decides. It returns, advances and stays inside the extensions exactly when all of them up
to the server names have a whole header and none of them has a length for which the sum is zero.
-/

namespace QVPN

open BigEndian Memory Strides

namespace TLS13ClientHelloPacket

/-- The loop over the extensions between two positions returns. Each of its iterations reads a type
and a length that lie between these positions, and goes forward if the loop goes on. -/
structure WalksInBounds (mem : List UByte) (b e : ℕ) : Prop where
  returns : ∃ fuel i, run (sniIteration mem) e fuel b = .ok i
  advances : ∀ j n, Visits (sniIteration mem) e b j → j < e → sniIteration mem j = .ok (some n) →
    0 < n
  inRange : ∀ j, Visits (sniIteration mem) e b j → j < e → b ≤ j ∧ j + 4 ≤ e

/-- Extensions of a total size that can be walked over. The walk ends at the size or at the header
of the server names. Before that, every extension has a whole header whose length does not make
sixteen bits overflow to zero, and what begins behind the extension can be walked over as well. -/
inductive WalkableExtensions : ℕ → List UByte → Prop where
  | done (rest : List UByte) : WalkableExtensions 0 rest
  | serverName (size : ℕ) (length : UShort) (rest : List UByte) :
      WalkableExtensions size (bytes16 TLSExtensionType.SERVER_NAME ++ bytes16 length ++ rest)
  | other {size : ℕ} {extType length : UShort} {rest : List UByte}
      (hextType : extType ≠ TLSExtensionType.SERVER_NAME) (hlength : length.toNat ≠ 65532)
      (hrest : WalkableExtensions (size - (length + 4).toNat)
        ((bytes16 extType ++ bytes16 length ++ rest).drop (length + 4).toNat)) :
      WalkableExtensions size (bytes16 extType ++ bytes16 length ++ rest)

/-- What an iteration does about a header. -/
def headerStride (extType length : UShort) : Option ℕ :=
  if extType = TLSExtensionType.SERVER_NAME then none else some (length + 4).toNat

/-- An iteration depends on what stands at its position. -/
theorem sniIteration_drop (mem : List UByte) (n i : ℕ) :
    sniIteration (mem.drop n) i = sniIteration mem (n + i) := by
  simp only [sniIteration, TLSExtensionView.getTlsExtFullLength, TLSExtensionView.getTlsExtLength,
    TLSExtensionView.getTlsExtType, Lens.read16_drop, Nat.add_assoc]

/-- An iteration at a whole header. -/
theorem sniIteration_header (extType length : UShort) (rest : List UByte) :
    sniIteration (bytes16 extType ++ bytes16 length ++ rest) 0 =
      .ok (headerStride extType length) := by
  have hextType : read16 (bytes16 extType ++ bytes16 length ++ rest) 0 = .ok extType :=
    read16_split [] (bytes16 length ++ rest) (by simp) rfl
  have hlength : read16 (bytes16 extType ++ bytes16 length ++ rest) (0 + 2) = .ok length :=
    read16_split (bytes16 extType) rest rfl rfl
  simp only [sniIteration, TLSExtensionView.getTlsExtFullLength, TLSExtensionView.getTlsExtLength,
    TLSExtensionView.getTlsExtType, hextType, hlength, ok_bind, pure_bind, headerStride]
  split <;> rfl

/-- An iteration decides only at a whole header. -/
theorem exists_header_of_sniIteration {mem : List UByte} {i : ℕ} {decision : Option ℕ}
    (h : sniIteration mem i = .ok decision) :
    ∃ extType length rest, mem.drop i = bytes16 extType ++ bytes16 length ++ rest ∧
      decision = headerStride extType length := by
  have hread := h
  obtain ⟨fullLength, hfull, -⟩ := bind_eq_ok_iff.mp hread
  obtain ⟨length, hlength, -⟩ := bind_eq_ok_iff.mp hfull
  have hlt : i + 3 < mem.length := read16_lt hlength
  obtain ⟨a, b, c, d, rest, hmem⟩ :
      ∃ a b c d rest, mem.drop i = a :: b :: c :: d :: rest := by
    match hdrop : mem.drop i with
    | a :: b :: c :: d :: rest => exact ⟨a, b, c, d, rest, rfl⟩
    | [] | [_] | [_, _] | [_, _, _] =>
      have hsize := congrArg List.length hdrop
      simp only [List.length_drop, List.length_cons, List.length_nil] at hsize
      omega
  have hheader : mem.drop i = bytes16 (join a b) ++ bytes16 (join c d) ++ rest := by
    rw [hmem]
    simp [bytes16]
  refine ⟨_, _, rest, hheader, ?_⟩
  rw [← Nat.add_zero i, ← sniIteration_drop, hheader, sniIteration_header] at h
  exact (Except.ok.inj h).symm

/-- An iteration that decides has read four bytes. -/
theorem add_four_le_of_sniIteration {mem : List UByte} {i : ℕ} {decision : Option ℕ}
    (h : sniIteration mem i = .ok decision) : i + 4 ≤ mem.length := by
  obtain ⟨extType, length, rest, hheader, -⟩ := exists_header_of_sniIteration h
  have hsize := congrArg List.length hheader
  simp only [List.length_drop, List.length_append, bytes16_length] at hsize
  omega

/-- What follows a whole header does not matter. -/
theorem sniIteration_append {mem : List UByte} {i : ℕ} {decision : Option ℕ}
    (h : sniIteration mem i = .ok decision) (after : List UByte) :
    sniIteration (mem ++ after) i = .ok decision := by
  have hfits := add_four_le_of_sniIteration h
  obtain ⟨extType, length, rest, hheader, hdecision⟩ := exists_header_of_sniIteration h
  rw [← Nat.add_zero i, ← sniIteration_drop, List.drop_append_of_le_length (by omega), hheader,
    List.append_assoc _ rest, sniIteration_header, hdecision]

/-- The sum goes forward unless it overflows to zero. -/
theorem headerStride_ne_zero_iff {extType length : UShort} :
    headerStride extType length ≠ some 0 ↔
      extType = TLSExtensionType.SERVER_NAME ∨ length.toNat ≠ 65532 := by
  have hlt := length.toNat_lt
  have hsum : (length + 4).toNat = (length.toNat + 4) % 65536 := UInt16.toNat_add length 4
  unfold headerStride
  split
  · simp [*]
  · rw [ne_eq, Option.some.injEq]
    simp only [*, false_or]
    omega

/-- Extensions can be walked over when their headers divide them. -/
theorem divisible_iff_walkable {size : ℕ} {bytes : List UByte} :
    Divisible (fun _ xs => sniIteration xs 0) size bytes ↔ WalkableExtensions size bytes := by
  constructor
  · intro h
    induction h with
    | done xs => exact .done xs
    | leave hleave =>
      obtain ⟨extType, length, rest, hbytes, hdecision⟩ := exists_header_of_sniIteration hleave
      by_cases hextType : extType = TLSExtensionType.SERVER_NAME
      · rw [List.drop_zero, hextType] at hbytes
        rw [hbytes]
        exact .serverName _ _ _
      · rw [headerStride, if_neg hextType] at hdecision
        cases hdecision
    | cut hcut hn _ ih =>
      obtain ⟨extType, length, rest, hbytes, hdecision⟩ := exists_header_of_sniIteration hcut
      rw [List.drop_zero] at hbytes
      have hforward : headerStride extType length ≠ some 0 := by
        rw [← hdecision]
        exact fun hzero => hn (Option.some.inj hzero)
      by_cases hextType : extType = TLSExtensionType.SERVER_NAME
      · rw [headerStride, if_pos hextType] at hdecision
        cases hdecision
      · have hstride := hdecision
        rw [headerStride, if_neg hextType, Option.some.injEq] at hstride
        rw [hstride, hbytes] at ih
        rw [hbytes]
        exact .other hextType ((headerStride_ne_zero_iff.mp hforward).resolve_left hextType) ih
  · intro h
    induction h with
    | done rest => exact .done rest
    | serverName size length rest => exact .leave (sniIteration_header _ _ _)
    | @other size extType length rest hextType hlength _ ih =>
      have hforward := headerStride_ne_zero_iff.mpr (.inr hlength : extType = _ ∨ _)
      have hstride := sniIteration_header extType length rest
      rw [headerStride, if_neg hextType] at hforward hstride
      exact .cut hstride (fun hzero => hforward (congrArg some hzero)) ih

/-- The loop stays in bounds when it makes progress on the bytes in front of its end. -/
theorem walksInBounds_iff_progresses {mem : List UByte} {b e : ℕ} :
    WalksInBounds mem b e ↔ Progresses (sniIteration (mem.take e)) e b := by
  have hagree (i : ℕ) (decision : Option ℕ) (h : sniIteration (mem.take e) i = .ok decision) :
      sniIteration mem i = .ok decision := by
    have hall := sniIteration_append h (mem.drop e)
    rwa [List.take_append_drop] at hall
  constructor
  · intro h j hj hlt
    have hvisited := hj.of_agree hagree
    obtain ⟨decision, hdecision, hpos⟩ := exists_run_iff.mp h.returns j hvisited hlt
    obtain ⟨extType, length, rest, hheader, hstride⟩ := exists_header_of_sniIteration hdecision
    have hfits := (h.inRange j hvisited hlt).2
    refine ⟨decision, ?_, hpos⟩
    have hcut : (mem.take e).drop j =
        bytes16 extType ++ bytes16 length ++ rest.take (e - (j + 4)) := by
      rw [List.drop_take, hheader, show e - j = 4 + (e - (j + 4)) by omega]
      exact @List.take_length_add_append _ (bytes16 extType ++ bytes16 length) _ _
    rw [← Nat.add_zero j, ← sniIteration_drop, hcut, sniIteration_header, hstride]
  · intro h
    have hvisits (j : ℕ) (hj : Visits (sniIteration mem) e b j) :
        Visits (sniIteration (mem.take e)) e b j := h.visits hagree hj
    have hprogresses : Progresses (sniIteration mem) e b := by
      intro j hj hlt
      obtain ⟨decision, hdecision, hpos⟩ := h j (hvisits j hj) hlt
      exact ⟨decision, hagree j decision hdecision, hpos⟩
    refine ⟨exists_run_iff.mpr hprogresses, ?_, ?_⟩
    · intro j n hj hlt hstride
      obtain ⟨decision, hdecision, hpos⟩ := hprogresses j hj hlt
      rw [hstride] at hdecision
      cases hdecision
      exact Nat.pos_of_ne_zero fun hzero => hpos (congrArg some hzero)
    · intro j hj hlt
      obtain ⟨decision, hdecision, -⟩ := h j (hvisits j hj) hlt
      have hfits := add_four_le_of_sniIteration hdecision
      rw [List.length_take] at hfits
      exact ⟨hj.le, by omega⟩

/-- The loop stays in bounds exactly when the extensions between its ends can be walked over. -/
theorem walksInBounds_iff (mem : List UByte) (b e : ℕ) :
    WalksInBounds mem b e ↔ WalkableExtensions (e - b) ((mem.take e).drop b) := by
  have hhead (i : ℕ) (_ : i < e) :
      sniIteration (mem.take e) i = sniIteration ((mem.take e).drop i) 0 := by
    rw [sniIteration_drop, Nat.add_zero]
  rw [walksInBounds_iff_progresses, ← divisible_iff_walkable]
  exact progresses_iff_divisible hhead

end TLS13ClientHelloPacket

/-- The extensions of a hello, which begin behind their length, can be walked over. The bytes are
counted from the first byte of the hello. -/
def TLS13HelloPacketScheme.Walkable (scheme : TLS13HelloPacketScheme) (bytes : List UByte) : Prop :=
  TLS13ClientHelloPacket.WalkableExtensions (scheme.extensions.2 - (scheme.extensions.1 + 2))
    ((bytes.take scheme.extensions.2).drop (scheme.extensions.1 + 2))

/-- The loop of the object stays in bounds. -/
def TLS13ClientHelloPacketLittleEndian.WalksInBounds (p : TLS13ClientHelloPacketLittleEndian) :
    Prop :=
  ∃ b e, p.getTlsExtensions = .ok (b, e) ∧ TLS13ClientHelloPacket.WalksInBounds p.data b e

/-- The loop of the view stays in bounds. -/
def TLS13ClientHelloPacketView.WalksInBounds (p : TLS13ClientHelloPacketView) : Prop :=
  ∃ b e, p.getTlsExtensions = .ok (b, e) ∧ TLS13ClientHelloPacket.WalksInBounds p.mem b e

/-- The extensions of a parsed hello lie where the parser found them. -/
theorem getTlsExtensions_of_parsed {mem : List UByte} {first : ℕ} {scheme : TLS13HelloPacketScheme}
    (h : unifiedParseClientScheme mem first = .ok scheme) :
    TLSExtensionsView.getTlsExtensions mem (first + scheme.extensions.1) =
      .ok (first + (scheme.extensions.1 + 2), first + scheme.extensions.2) := by
  obtain ⟨sessionLength, -, h⟩ := bind_eq_ok_iff.mp h
  obtain ⟨ciphersLength, -, h⟩ := bind_eq_ok_iff.mp h
  obtain ⟨compressionsLength, -, h⟩ := bind_eq_ok_iff.mp h
  obtain ⟨extensionsLength, hextensions, h⟩ := bind_eq_ok_iff.mp h
  cases Except.ok.inj h
  rw [TLSExtensionsView.getTlsExtensions, hextensions, ok_bind]
  simp only [Nat.add_assoc]
  rfl

/-- The walk over the extensions of a parsed hello. -/
theorem walksInBounds_of_parsed {mem : List UByte} {first : ℕ} {scheme : TLS13HelloPacketScheme}
    (h : unifiedParseClientScheme mem first = .ok scheme) :
    (∃ b e, TLSExtensionsView.getTlsExtensions mem (first + scheme.extensions.1) = .ok (b, e) ∧
      TLS13ClientHelloPacket.WalksInBounds mem b e) ↔ scheme.Walkable (mem.drop first) := by
  have hsize : first + scheme.extensions.2 - (first + (scheme.extensions.1 + 2)) =
      scheme.extensions.2 - (scheme.extensions.1 + 2) := Nat.add_sub_add_left _ _ _
  have hbytes : (mem.take (first + scheme.extensions.2)).drop (first + (scheme.extensions.1 + 2)) =
      ((mem.drop first).take scheme.extensions.2).drop (scheme.extensions.1 + 2) := by
    rw [← List.drop_drop, List.drop_take, Nat.add_sub_cancel_left]
  rw [getTlsExtensions_of_parsed h, TLS13HelloPacketScheme.Walkable, ← hsize, ← hbytes,
    ← TLS13ClientHelloPacket.walksInBounds_iff]
  constructor
  · intro ⟨b, e, hrange, hwalks⟩
    cases Except.ok.inj hrange
    exact hwalks
  · intro hwalks
    exact ⟨_, _, rfl, hwalks⟩

/-- For any bytes that are parsed as a client hello, copied or in place, the loop over the extensions
stays in bounds exactly when they can be walked over. -/
theorem clientHello_walksInBounds_iff (mem : List UByte) (first last : ℕ) :
    (∀ object, TLS13ClientHelloPacketLittleEndian.ofBytes mem = .ok object →
      (object.WalksInBounds ↔ object.scheme.Walkable mem)) ∧
    ∀ view, TLS13ClientHelloPacketView.ofRange mem first last = .ok view →
      (view.WalksInBounds ↔ view.scheme.Walkable (mem.drop first)) := by
  constructor
  · intro object hobject
    obtain ⟨scheme, hscheme, hobject⟩ := bind_eq_ok_iff.mp hobject
    cases Except.ok.inj hobject
    have hwalks := walksInBounds_of_parsed hscheme
    rwa [Nat.zero_add, List.drop_zero] at hwalks
  · intro view hview
    obtain ⟨scheme, hscheme, hview⟩ := bind_eq_ok_iff.mp hview
    cases Except.ok.inj hview
    exact walksInBounds_of_parsed hscheme

/-- A hello with nothing but an extensions block. -/
def bareHello (extensions : List UByte) : List UByte :=
  [3, 3] ++ List.replicate 32 0 ++ [0, 0, 0, 0] ++ bytes16 (UInt16.ofNat extensions.length) ++
    extensions

/-- An extension that declares four bytes less than sixteen bits can count to. -/
def wrappingExtension : List UByte := [0, 43, 255, 252]

/-- The loop stands still at an extension of 65532 bytes, copied or in place. The header of an
extension that the block cuts off is read behind the block. -/
theorem bareHello_not_walksInBounds :
    (∃ object, TLS13ClientHelloPacketLittleEndian.ofBytes (bareHello wrappingExtension) =
      .ok object ∧ ¬object.WalksInBounds) ∧
    (∃ view, TLS13ClientHelloPacketView.ofRange (bareHello wrappingExtension) 0 44 = .ok view ∧
      ¬view.WalksInBounds) ∧
    ∃ view, TLS13ClientHelloPacketView.ofRange (bareHello [0, 43, 0] ++ [0]) 0 43 = .ok view ∧
      ¬view.WalksInBounds := by
  have hstands (b e : ℕ) (hrange : TLSExtensionsView.getTlsExtensions
      (bareHello wrappingExtension) 38 = .ok (b, e)) :
      ¬TLS13ClientHelloPacket.WalksInBounds (bareHello wrappingExtension) b e := by
    cases Except.ok.inj (hrange.symm.trans (by decide : _ = Except.ok (40, 44)))
    intro h
    obtain ⟨fuel, i, hrun⟩ := h.returns
    exact run_of_zero (by decide) (by decide) fuel i hrun
  refine ⟨⟨_, rfl, ?_⟩, ⟨_, rfl, ?_⟩, ⟨_, rfl, ?_⟩⟩
  · intro ⟨b, e, hrange, h⟩
    exact hstands b e hrange h
  · intro ⟨b, e, hrange, h⟩
    exact hstands b e hrange h
  · intro ⟨b, e, hrange, h⟩
    cases Except.ok.inj (hrange.symm.trans (by decide : _ = Except.ok (40, 43)))
    have hin := (h.inRange 40 (.here 40) (by decide)).2
    exact absurd hin (by decide)

/-- Where the fields of a hello with nothing but four bytes of extensions lie. -/
def bareScheme : TLS13HelloPacketScheme := ⟨(2, 34), (34, 35), (35, 37), (37, 38), (38, 44)⟩

/-- A hello whose only extension has no data is walked over, copied or in place. -/
theorem clientHello_walksInBounds_bare :
    (TLS13ClientHelloPacketLittleEndian.mk (bareHello [0, 43, 0, 0]) bareScheme).WalksInBounds ∧
      (TLS13ClientHelloPacketView.mk (bareHello [0, 43, 0, 0]) 0 44 bareScheme).WalksInBounds := by
  have hbytes : ((bareHello [0, 43, 0, 0]).take 44).drop 40 = [0, 43, 0, 0] := by decide
  have hwalkable : bareScheme.Walkable (bareHello [0, 43, 0, 0]) := by
    change TLS13ClientHelloPacket.WalkableExtensions 4 (((bareHello [0, 43, 0, 0]).take 44).drop 40)
    rw [hbytes]
    exact @TLS13ClientHelloPacket.WalkableExtensions.other 4 43 0 [] (by decide) (by decide) (.done _)
  exact ⟨((clientHello_walksInBounds_iff _ 0 44).1 _ (by decide)).mpr hwalkable,
    ((clientHello_walksInBounds_iff _ 0 44).2 _ (by decide)).mpr hwalkable⟩

end QVPN
