import QVPN.Properties.ExtensionWalk
import QVPN.Properties.HelloRanges

/-!
# The server names of a hello

The server names of a generated hello lie behind the header of their extension. The lookup finds
this header, but reads the list of names from the first byte of the header on: the type of the
extension is taken for the length of the list, and this type is zero.
-/

namespace QVPN

open BigEndian Memory Strides

namespace TLS13ClientHelloPacket

/-- An extension with its type and its data. -/
def extensionBytes (ext : UShort × List UByte) : List UByte :=
  TLSExtension.generateObjectBytes ext.1 ext.2

/-- The iteration at a generated extension. -/
theorem sniIteration_extension {mem : List UByte} {i : ℕ} (ext : UShort × List UByte)
    (rest : List UByte) (hmem : mem.drop i = extensionBytes ext ++ rest) :
    sniIteration mem i = .ok (headerStride ext.1 (UInt16.ofNat ext.2.length)) := by
  rw [← Nat.add_zero i, ← sniIteration_drop, hmem, extensionBytes, TLSExtension.generateObjectBytes,
    List.append_assoc _ ext.2, sniIteration_header]

/-- The loop over generated extensions gets to the first one of the server names. -/
theorem exists_visits_serverName {mem : List UByte} {e : ℕ} (extensions : List (UShort × List UByte))
    {b : ℕ} (after : List UByte)
    (hmem : mem.drop b = (extensions.map extensionBytes).flatten ++ after)
    (he : e = b + (extensions.map extensionBytes).flatten.length)
    (hfits : (extensions.map extensionBytes).flatten.length < 65536)
    (hserverName : ∃ ext ∈ extensions, ext.1 = TLSExtensionType.SERVER_NAME) :
    ∃ ext ∈ extensions, ext.1 = TLSExtensionType.SERVER_NAME ∧
      ∃ i rest, Visits (sniIteration mem) e b i ∧ i < e ∧ mem.drop i = extensionBytes ext ++ rest := by
  induction extensions generalizing b with
  | nil => simp at hserverName
  | cons ext extensions ih =>
    have hlength : (extensionBytes ext).length = 4 + ext.2.length := extension_length _ _
    rw [List.map_cons, List.flatten_cons, List.append_assoc] at hmem
    rw [List.map_cons, List.flatten_cons, List.length_append] at he hfits
    by_cases hext : ext.1 = TLSExtensionType.SERVER_NAME
    · exact ⟨ext, List.mem_cons_self, hext, b, _, .here b, by omega, hmem⟩
    · have hstride := sniIteration_extension ext _ hmem
      have hsum : (UInt16.ofNat ext.2.length + 4).toNat = (extensionBytes ext).length := by
        rw [UInt16.toNat_add, ofNat_toNat_of_le (by omega), hlength]
        simp
        omega
      rw [headerStride, if_neg hext, hsum] at hstride
      have hrest : mem.drop (b + (extensionBytes ext).length) =
          (extensions.map extensionBytes).flatten ++ after := by
        rw [← List.drop_drop, hmem, List.drop_left]
      have hremaining : ∃ other ∈ extensions, other.1 = TLSExtensionType.SERVER_NAME := by
        obtain ⟨other, hother, htype⟩ := hserverName
        cases hother with
        | head => exact absurd htype hext
        | tail _ hother => exact ⟨other, hother, htype⟩
      obtain ⟨found, hfound, htype, i, rest, hvisits, hi, hat⟩ :=
        ih hrest (by omega) (by omega) hremaining
      exact ⟨found, List.mem_cons_of_mem _ hfound, htype, i, rest,
        .next (by omega) hstride hvisits, hi, hat⟩

end TLS13ClientHelloPacket

/-- Bytes that are read as the entries of hosts, one after the other. -/
inductive ReadsHosts : List UByte → List (List UByte) → Prop where
  | nil : ReadsHosts [] []
  | cons {covered host : List UByte} {hosts : List (List UByte)}
      (htype : TLSServerNameIndicationEntryView.getTlsSniRecordType covered 0 =
        .ok TLSSNIRecordType.HOST_NAME)
      (hhost : TLSServerNameIndicationEntryView.getTlsSniEntryData covered 0 = .ok host)
      (hrest : ReadsHosts (covered.drop (3 + host.length)) hosts) :
      ReadsHosts covered (host :: hosts)

/-- A view declares as many bytes as it covers, and they are read as the entries of the hosts. -/
def TLSServerNameIndicationExtensionView.Lists (v : TLSServerNameIndicationExtensionView)
    (hosts : List (List UByte)) : Prop :=
  ∃ length covered, v.getTlsSniLength = .ok length ∧ v.getTlsSniData = .ok covered ∧
    length.toNat = covered.length ∧ ReadsHosts covered hosts

/-- A hello that carries the server names of hosts in one of its extensions, whose parts are as long
as they declare. -/
structure SniHello (hosts : List (List UByte)) where
  parts : TLS13ClientHelloParts
  extensions : List (UShort × List UByte)
  version_length : parts.legacyVersion.length = 2
  declared : parts.Declared
  cipher_fits : parts.cipher.length < 65536
  extensions_eq : parts.extensions =
    TLSExtensions.generateObjectBytes (extensions.map TLS13ClientHelloPacket.extensionBytes)
  extensions_fit : parts.extensions.length < 65536
  carries : (TLSExtensionType.SERVER_NAME,
    TLSServerNameIndicationExtension.generateObjectBytesOfHosts hosts) ∈ extensions

namespace SniHello

variable {hosts : List (List UByte)}

/-- The copied hello returns a view that lists the hosts. -/
def ObjectLists (hello : SniHello hosts) : Prop :=
  ∃ p fuel v, TLS13ClientHelloPacketLittleEndian.ofBytes hello.parts.objBytes = .ok p ∧
    p.getTlsSniData fuel = .ok v ∧ v.Lists hosts

/-- The hello in place, between other bytes, returns a view that lists the hosts. -/
def ViewLists (hello : SniHello hosts) (before after : List UByte) : Prop :=
  ∃ p fuel v, TLS13ClientHelloPacketView.ofRange (before ++ hello.parts.objBytes ++ after)
      before.length (before.length + hello.parts.objBytes.length) = .ok p ∧
    p.getTlsSniData fuel = .ok v ∧ v.Lists hosts

end SniHello

/-- A parser does not look in front of the hello. -/
theorem unifiedParseClientScheme_drop (mem : List UByte) (n first : ℕ) :
    unifiedParseClientScheme (mem.drop n) first = unifiedParseClientScheme mem (n + first) := by
  simp only [unifiedParseClientScheme, TLSSessionIDView.getTlsIdFullLength,
    TLSCipherSuitView.getTlsCiphersFullLength, TLSCompressionView.getTlsCompressionsFullLength,
    TLSExtensionsView.getTlsExtensionsFullLength, Lens.readAt_drop, Lens.read16_drop, Nat.add_assoc]

/-- A parser that finds the fields of a hello does not look behind it. -/
theorem unifiedParseClientScheme_append {mem : List UByte} {first : ℕ}
    {scheme : TLS13HelloPacketScheme} (h : unifiedParseClientScheme mem first = .ok scheme)
    (after : List UByte) : unifiedParseClientScheme (mem ++ after) first = .ok scheme := by
  simp only [unifiedParseClientScheme, TLSSessionIDView.getTlsIdFullLength,
    TLSCipherSuitView.getTlsCiphersFullLength, TLSCompressionView.getTlsCompressionsFullLength,
    TLSExtensionsView.getTlsExtensionsFullLength, bind_assoc, pure_bind, bind_eq_ok_iff] at h ⊢
  obtain ⟨session, hsession, ciphers, hciphers, compressions, hcompressions, extensions,
    hextensions, hscheme⟩ := h
  exact ⟨session, readAt_of_prefix hsession after, ciphers, read16_of_prefix hciphers after,
    compressions, readAt_of_prefix hcompressions after, extensions,
    read16_of_prefix hextensions after, hscheme⟩

/-- The view that the lookup makes of a header of server names. -/
theorem TLS13ClientHelloPacket.getTlsSniData_of_visits {mem : List UByte} {b e i : ℕ}
    (hvisits : Visits (sniIteration mem) e b i) (hi : i < e)
    (hat : ∃ length rest, mem.drop i =
      bytes16 TLSExtensionType.SERVER_NAME ++ bytes16 length ++ rest) :
    (∃ fuel, getTlsSniData mem fuel b e = .ok ⟨mem, i, 2⟩) ∧
      ∀ fuel v, getTlsSniData mem fuel b e = .ok v → v = ⟨mem, i, 2⟩ := by
  obtain ⟨length, rest, hat⟩ := hat
  have hleave : sniIteration mem i = .ok none := by
    rw [← Nat.add_zero i, ← sniIteration_drop, hat, sniIteration_header]
    rfl
  have htype : read16 mem i = .ok TLSExtensionType.SERVER_NAME := by
    rw [← Nat.add_zero i, ← Lens.read16_drop, hat]
    exact read16_split [] (bytes16 length ++ rest) (by simp) rfl
  have hview : TLSServerNameIndicationExtensionView.ofRange mem i = .ok ⟨mem, i, 2⟩ := by
    rw [TLSServerNameIndicationExtensionView.ofRange, htype]
    rfl
  obtain ⟨fuel, hrun⟩ := hvisits.exists_run hi hleave
  refine ⟨⟨fuel, ?_⟩, fun fuel v hv => ?_⟩
  · rw [getTlsSniData, hrun, ok_bind, if_pos hi, hview]
  · obtain ⟨j, hj, hv⟩ := bind_eq_ok_iff.mp hv
    rw [hvisits.run_eq hi hleave hj, if_pos hi, hview] at hv
    exact (Except.ok.inj hv).symm

/-- A view that begins with the type of the server names covers nothing. -/
theorem TLSServerNameIndicationExtensionView.not_lists {mem : List UByte} {i : ℕ}
    {hosts : List (List UByte)} (hhosts : hosts ≠ []) :
    ¬(TLSServerNameIndicationExtensionView.mk mem i 2).Lists hosts := by
  intro ⟨length, covered, _, hcovered, _, hreads⟩
  have hlength : (covered.length : ℤ) = i + 2 - (i + 2) := slice_length hcovered
  have hnone : covered = [] := List.eq_nil_of_length_eq_zero (by omega)
  cases hreads with
  | nil => exact hhosts rfl
  | cons htype =>
    rw [hnone] at htype
    cases htype

namespace SniHello

variable {hosts : List (List UByte)}

/-- Wherever a hello with server names stands, the lookup gets to the header of an extension of
server names. -/
theorem exists_header (hello : SniHello hosts) {before after mem : List UByte}
    (hmem : mem = before ++ hello.parts.objBytes ++ after) :
    ∃ scheme b e, unifiedParseClientScheme mem before.length = .ok scheme ∧
      TLSExtensionsView.getTlsExtensions mem (before.length + scheme.extensions.1) = .ok (b, e) ∧
      ∃ ext ∈ hello.extensions, ext.1 = TLSExtensionType.SERVER_NAME ∧
        ∃ i rest, Visits (TLS13ClientHelloPacket.sniIteration mem) e b i ∧ i < e ∧
          mem.drop i = TLS13ClientHelloPacket.extensionBytes ext ++ rest := by
  obtain ⟨parts, extensions, hversion, hdeclared, hcipher, hextensions, hfits, hcarries⟩ := hello
  dsimp only at hmem hextensions hfits ⊢
  let front := parts.legacyVersion ++ parts.random ++ parts.session ++ parts.cipher ++ parts.compres
  let exts := (extensions.map TLS13ClientHelloPacket.extensionBytes).flatten
  have hsize : parts.extensions.length = 2 + exts.length := by
    rw [hextensions, TLSExtensions.generateObjectBytes, List.length_append, bytes16_length]
  obtain ⟨scheme, hscheme, hfound⟩ := hdeclared.foundBy hversion hcipher hfits
  have hobject : parts.objBytes.length = front.length + parts.extensions.length :=
    List.length_append
  have hend : scheme.extensions.2 = front.length + 2 + exts.length := by
    rw [hfound.extensions_end, hobject, hsize, Nat.add_assoc]
  have hbegin : scheme.extensions.1 = front.length := by
    obtain ⟨part, hpart, hslice⟩ := mapM_getElem? hfound.held (i := 4) rfl
    cases Option.some.inj hpart
    have hlength := slice_length hslice
    omega
  have hparsed : unifiedParseClientScheme mem before.length = .ok scheme := by
    rw [← Nat.add_zero before.length, ← unifiedParseClientScheme_drop, hmem, List.append_assoc,
      List.drop_left]
    exact unifiedParseClientScheme_append hscheme after
  have hdrop : mem.drop (before.length + (scheme.extensions.1 + 2)) = exts ++ after := by
    have hlayout : mem =
        before ++ (front ++ bytes16 (UInt16.ofNat exts.length)) ++ (exts ++ after) := by
      rw [hmem, show parts.objBytes = front ++ parts.extensions from rfl, hextensions,
        TLSExtensions.generateObjectBytes]
      simp only [exts, List.append_assoc]
    rw [hlayout]
    exact List.drop_left' (by rw [hbegin, List.length_append, List.length_append, bytes16_length])
  have hlast : before.length + scheme.extensions.2 =
      before.length + (scheme.extensions.1 + 2) + exts.length := by omega
  have hshort : exts.length < 65536 := by omega
  obtain ⟨ext, hext, htype, i, rest, hvisits, hi, hat⟩ :=
    TLS13ClientHelloPacket.exists_visits_serverName extensions after hdrop hlast hshort
      ⟨_, hcarries, rfl⟩
  exact ⟨scheme, _, _, hparsed, getTlsExtensions_of_parsed hparsed, ext, hext, htype, i, rest,
    hvisits, hi, hat⟩

/-- The copied hello and the hello in place do what the lookup does. -/
theorem getTlsSniData_eq (hello : SniHello hosts) (before after : List UByte) {mem : List UByte}
    (hmem : mem = before ++ hello.parts.objBytes ++ after) :
    ∃ scheme b e i, unifiedParseClientScheme mem before.length = .ok scheme ∧
      TLSExtensionsView.getTlsExtensions mem (before.length + scheme.extensions.1) = .ok (b, e) ∧
      (∃ fuel, TLS13ClientHelloPacket.getTlsSniData mem fuel b e = .ok ⟨mem, i, 2⟩) ∧
      (∀ fuel v, TLS13ClientHelloPacket.getTlsSniData mem fuel b e = .ok v → v = ⟨mem, i, 2⟩) ∧
      ∃ ext ∈ hello.extensions, ext.1 = TLSExtensionType.SERVER_NAME ∧
        ∃ rest, mem.drop i = TLS13ClientHelloPacket.extensionBytes ext ++ rest := by
  obtain ⟨scheme, b, e, hparsed, hrange, ext, hext, htype, i, rest, hvisits, hi, hat⟩ :=
    hello.exists_header hmem
  have hheader : ∃ length rest, mem.drop i =
      bytes16 TLSExtensionType.SERVER_NAME ++ bytes16 length ++ rest := by
    refine ⟨UInt16.ofNat ext.2.length, ext.2 ++ rest, ?_⟩
    rw [hat, TLS13ClientHelloPacket.extensionBytes, TLSExtension.generateObjectBytes, htype,
      List.append_assoc _ ext.2]
  obtain ⟨hreturns, hunique⟩ :=
    TLS13ClientHelloPacket.getTlsSniData_of_visits hvisits hi hheader
  exact ⟨scheme, b, e, i, hparsed, hrange, hreturns, hunique, ext, hext, htype, rest, hat⟩

/-- The copied hello lists no hosts. -/
theorem not_objectLists (hello : SniHello hosts) (hhosts : hosts ≠ []) : ¬hello.ObjectLists := by
  intro ⟨p, fuel, v, hp, hv, hlists⟩
  have hmem : hello.parts.objBytes = [] ++ hello.parts.objBytes ++ [] := (List.append_nil _).symm
  obtain ⟨scheme, b, e, i, hparsed, hrange, -, hunique, -⟩ := hello.getTlsSniData_eq [] [] hmem
  rw [TLS13ClientHelloPacketLittleEndian.ofBytes, show (0 : ℕ) = ([] : List UByte).length from rfl,
    hparsed] at hp
  cases Except.ok.inj hp
  rw [List.length_nil, Nat.zero_add] at hrange
  rw [TLS13ClientHelloPacketLittleEndian.getTlsSniData,
    TLS13ClientHelloPacketLittleEndian.getTlsExtensions, hrange] at hv
  rw [hunique fuel v hv] at hlists
  exact TLSServerNameIndicationExtensionView.not_lists hhosts hlists

/-- The hello in place lists no hosts. -/
theorem not_viewLists (hello : SniHello hosts) (hhosts : hosts ≠ []) (before after : List UByte) :
    ¬hello.ViewLists before after := by
  intro ⟨p, fuel, v, hp, hv, hlists⟩
  obtain ⟨scheme, b, e, i, hparsed, hrange, -, hunique, -⟩ :=
    hello.getTlsSniData_eq before after rfl
  rw [TLS13ClientHelloPacketView.ofRange, hparsed] at hp
  cases Except.ok.inj hp
  rw [TLS13ClientHelloPacketView.getTlsSniData, TLS13ClientHelloPacketView.getTlsExtensions,
    hrange] at hv
  rw [hunique fuel v hv] at hlists
  exact TLSServerNameIndicationExtensionView.not_lists hhosts hlists

end SniHello

/-- The entries of hosts, each shorter than 64 KiB, are read as these hosts. -/
theorem readsHosts_entries {hosts : List (List UByte)}
    (h : ∀ host ∈ hosts, host.length < 65536) :
    ReadsHosts (hosts.flatMap TLSServerNameIndicationEntry.generateObjectBytes) hosts := by
  induction hosts with
  | nil => exact .nil
  | cons host hosts ih =>
    rw [List.flatMap_cons]
    generalize hrest :
      hosts.flatMap TLSServerNameIndicationEntry.generateObjectBytes = rest at ih ⊢
    let length := UInt16.ofNat host.length
    have hnumber : length.toNat = host.length :=
      ofNat_toNat_of_le (Nat.le_of_lt_succ (h host List.mem_cons_self))
    have hentry : TLSServerNameIndicationEntry.generateObjectBytes host ++ rest =
        (0 :: bytes16 length) ++ host ++ rest := by
      rw [TLSServerNameIndicationEntry.generateObjectBytes]
      rfl
    have hread : read16 ((0 :: bytes16 length) ++ host ++ rest) (0 + 1) = .ok length :=
      read16_split [0] (host ++ rest) (by simp) rfl
    rw [hentry]
    refine .cons rfl ?_ ?_
    · rw [TLSServerNameIndicationEntryView.getTlsSniEntryData,
        TLSServerNameIndicationEntryView.getTlsSniLength, hread, ok_bind]
      exact slice_append _ _ _ _ _ rfl (by simp [hnumber]; omega)
    · rw [List.drop_left' (by simp; omega)]
      exact ih fun other hother => h other (List.mem_cons_of_mem _ hother)

/-- A generated list of hosts is listed by the view of its first byte. -/
theorem lists_generated {mem rest : List UByte} {i : ℕ} {hosts : List (List UByte)}
    (hmem : mem.drop i =
      TLSServerNameIndicationExtension.generateObjectBytesOfHosts hosts ++ rest)
    (hfits : (TLSServerNameIndicationExtension.generateObjectBytesOfHosts hosts).length < 65536)
    (hall : hosts.length < 65536) :
    ∃ v, TLSServerNameIndicationExtensionView.ofRange mem i = .ok v ∧ v.Lists hosts := by
  have hcount : (UInt16.ofNat hosts.length).toNat = hosts.length :=
    ofNat_toNat_of_le (Nat.le_of_lt_succ hall)
  let entries := hosts.flatMap TLSServerNameIndicationEntry.generateObjectBytes
  have hgenerated : TLSServerNameIndicationExtension.generateObjectBytesOfHosts hosts =
      bytes16 (UInt16.ofNat entries.length) ++ entries := by
    rw [TLSServerNameIndicationExtension.generateObjectBytesOfHosts, hcount, List.take_length]
    rfl
  rw [hgenerated] at hmem hfits
  rw [List.length_append, bytes16_length] at hfits
  have hnumber : (UInt16.ofNat entries.length).toNat = entries.length :=
    ofNat_toNat_of_le (by omega)
  have hread : read16 mem i = .ok (UInt16.ofNat entries.length) := by
    rw [← Nat.add_zero i, ← Lens.read16_drop, hmem]
    exact read16_split [] (entries ++ rest) (by simp) rfl
  have hsize : (UInt16.ofNat entries.length + 2).toUInt32.toNat = entries.length + 2 := by
    rw [UInt16.toNat_toUInt32, UInt16.toNat_add, hnumber]
    simp
    omega
  have hhosts : ∀ host ∈ hosts, host.length < 65536 := by
    intro host hhost
    obtain ⟨front, back, rfl⟩ := List.append_of_mem hhost
    have hentry := sniEntry_length host
    simp only [entries, List.flatMap_append, List.flatMap_cons, List.length_append] at hfits
    omega
  have hcovered : slice mem (i + 2 : ℤ) (i + (entries.length + 2 : ℕ)) = .ok entries := by
    have hlength := congrArg List.length hmem
    simp only [List.length_drop, List.length_append, bytes16_length] at hlength
    refine slice_eq_ok_iff.mpr ⟨by omega, by omega, by omega, ?_⟩
    rw [show ((i : ℤ) + 2).toNat = i + 2 by omega, ← List.drop_drop, hmem, List.append_assoc,
      List.drop_left' (bytes16_length _), List.take_left' (by omega)]
  refine ⟨_, by rw [TLSServerNameIndicationExtensionView.ofRange, hread]; rfl, ?_⟩
  refine ⟨_, entries, hread, ?_, hnumber, readsHosts_entries hhosts⟩
  rw [TLSServerNameIndicationExtensionView.getTlsSniData]
  dsimp only
  rw [hsize]
  exact hcovered

namespace SniHello

variable {hosts : List (List UByte)}

/-- The list of the hosts begins four bytes behind the byte that the lookup takes for its first. -/
theorem lists_behind_header (hello : SniHello hosts)
    (honly : ∀ ext ∈ hello.extensions, ext.1 = TLSExtensionType.SERVER_NAME →
      ext.2 = TLSServerNameIndicationExtension.generateObjectBytesOfHosts hosts)
    (hall : hosts.length < 65536) (before after : List UByte) :
    ∃ p fuel v w, TLS13ClientHelloPacketView.ofRange (before ++ hello.parts.objBytes ++ after)
        before.length (before.length + hello.parts.objBytes.length) = .ok p ∧
      p.getTlsSniData fuel = .ok v ∧
      TLSServerNameIndicationExtensionView.ofRange v.mem (v.data + 4) = .ok w ∧ w.Lists hosts := by
  obtain ⟨scheme, b, e, i, hparsed, hrange, ⟨fuel, hview⟩, -, ext, hext, htype, rest, hat⟩ :=
    hello.getTlsSniData_eq before after rfl
  have hbehind : (before ++ hello.parts.objBytes ++ after).drop (i + 4) =
      TLSServerNameIndicationExtension.generateObjectBytesOfHosts hosts ++ rest := by
    rw [← List.drop_drop, hat, TLS13ClientHelloPacket.extensionBytes,
      TLSExtension.generateObjectBytes, honly ext hext htype, List.append_assoc]
    exact List.drop_left' rfl
  have hfits :
      (TLSServerNameIndicationExtension.generateObjectBytesOfHosts hosts).length < 65536 := by
    obtain ⟨front, back, hsplit⟩ := List.append_of_mem hext
    have hlength := hello.extensions_fit
    rw [hello.extensions_eq, hsplit, TLSExtensions.generateObjectBytes] at hlength
    have hone : (TLS13ClientHelloPacket.extensionBytes ext).length = 4 + ext.2.length :=
      extension_length _ _
    simp only [List.map_append, List.map_cons, List.flatten_append, List.flatten_cons,
      List.length_append, bytes16_length] at hlength
    rw [← honly ext hext htype]
    omega
  obtain ⟨w, hw, hlists⟩ := lists_generated hbehind hfits hall
  obtain ⟨p, hp, hmem, hdata, hscheme⟩ : ∃ p, TLS13ClientHelloPacketView.ofRange
      (before ++ hello.parts.objBytes ++ after) before.length
      (before.length + hello.parts.objBytes.length) = .ok p ∧
      p.mem = before ++ hello.parts.objBytes ++ after ∧ p.data = before.length ∧
      p.scheme = scheme := by
    rw [TLS13ClientHelloPacketView.ofRange, hparsed]
    exact ⟨_, rfl, rfl, rfl, rfl⟩
  refine ⟨p, fuel, ⟨_, i, 2⟩, w, hp, ?_, hw, hlists⟩
  rw [TLS13ClientHelloPacketView.getTlsSniData, TLS13ClientHelloPacketView.getTlsExtensions, hmem,
    hdata, hscheme, hrange]
  exact hview

/-- A generated hello whose parts are as long as they declare carries the hosts of its strategy. -/
theorem exists_of_generated {strategy : TLS13ClientHelloGenStrategy} {draws : HelloDraws}
    {parts : TLS13ClientHelloParts} (h : strategy.ListsFitRecord)
    (hparts : TLS13ClientHello.generateParts strategy draws = .ok parts)
    (hdeclared : parts.Declared) :
    ∃ hello : SniHello strategy.getSniHosts, hello.parts = parts := by
  obtain ⟨hversion, hcipher, hfits⟩ := generateParts_fit h hparts
  obtain ⟨-, -, -, -, -, hgenerated⟩ := generateParts_eq_ok_iff.mp hparts
  obtain ⟨keyShare, -, hlayout⟩ := bind_eq_ok_iff.mp hgenerated
  exact ⟨{
    parts := parts
    extensions := [
      (TLSExtensionType.SUPPORTED_VERSIONS,
        TLSSupportedVersionsClientHelloExtension.generateObjectBytes
          strategy.getSupportedVersions),
      (TLSExtensionType.KEY_SHARE, keyShare),
      (TLSExtensionType.SERVER_NAME,
        TLSServerNameIndicationExtension.generateObjectBytesOfHosts strategy.getSniHosts)]
    version_length := hversion
    declared := hdeclared
    cipher_fits := hcipher
    extensions_eq := (Except.ok.inj hlayout).symm
    extensions_fit := hfits
    carries := by simp }, rfl⟩

end SniHello

/-- No hello with the server names of at least one host returns a view that lists them, whether it
is copied or read in place, and whatever else it holds. -/
theorem sniHello_not_lists {hosts : List (List UByte)} (hhosts : hosts ≠ [])
    (hello : SniHello hosts) (before after : List UByte) :
    ¬hello.ObjectLists ∧ ¬hello.ViewLists before after :=
  ⟨hello.not_objectLists hhosts, hello.not_viewLists hhosts before after⟩

/-- The hello of the default strategy, filled with zeros. -/
def defaultSniHello : SniHello TLS13DefaultClientHelloGenerationStrategy.getSniHosts :=
  let extensions := [
    (TLSExtensionType.SUPPORTED_VERSIONS,
      TLSSupportedVersionsClientHelloExtension.generateObjectBytes
        TLS13DefaultClientHelloGenerationStrategy.getSupportedVersions),
    (TLSExtensionType.KEY_SHARE, TLSKeyShareClientHello.generateObjectBytes
      [TLSKeyShareEntry.generateObjectBytes 32 0x001D (List.replicate 32 0)]),
    (TLSExtensionType.SERVER_NAME, TLSServerNameIndicationExtension.generateObjectBytesOfHosts
      TLS13DefaultClientHelloGenerationStrategy.getSniHosts)]
  { parts := ⟨[3, 3], List.replicate 32 0, 32 :: List.replicate 32 0,
      [0, 34] ++ List.replicate 34 0, [1, 0],
      TLSExtensions.generateObjectBytes (extensions.map TLS13ClientHelloPacket.extensionBytes)⟩
    extensions := extensions
    version_length := rfl
    declared := ⟨rfl, ⟨32, _, rfl, rfl⟩, ⟨34, List.replicate 34 0, rfl, rfl⟩, ⟨1, _, rfl, rfl⟩,
      ⟨_, _, rfl, by decide⟩⟩
    cipher_fits := by decide
    extensions_eq := rfl
    extensions_fit := by decide
    carries := by simp [extensions] }

/-- The lookup in the default hello returns a view that declares no bytes and covers none, though
the hello carries the server names of a host. -/
theorem defaultSniHello_not_lists :
    TLS13ClientHello.generateParts TLS13DefaultClientHelloGenerationStrategy zeroDraws =
      .ok defaultSniHello.parts ∧
    (do
      let p ← TLS13ClientHelloPacketLittleEndian.ofBytes defaultSniHello.parts.objBytes
      let v ← p.getTlsSniData 3
      let length ← v.getTlsSniLength
      let covered ← v.getTlsSniData
      return (length, covered)) = .ok (0, []) ∧
    TLS13DefaultClientHelloGenerationStrategy.getSniHosts ≠ [] ∧
    ¬defaultSniHello.ObjectLists ∧ ¬defaultSniHello.ViewLists [] [] :=
  ⟨by decide, by decide, by decide, defaultSniHello.not_objectLists (by decide),
    defaultSniHello.not_viewLists (by decide) [] []⟩

/-- The default hello between other bytes. -/
theorem sniHello_not_lists_default :
    TLS13DefaultClientHelloGenerationStrategy.getSniHosts ≠ [] ∧
      ¬defaultSniHello.ObjectLists ∧ ¬defaultSniHello.ViewLists [22, 3, 3] [0] :=
  ⟨by decide, sniHello_not_lists (by decide) defaultSniHello [22, 3, 3] [0]⟩

end QVPN
