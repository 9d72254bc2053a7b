import Mathlib.Algebra.BigOperators.Group.List.Basic
import QVPN.Lib.Spans
import QVPN.Structures.HelloStrategy

/-!
# The parts of a hello

A hello is parsed by walking over its parts, each of which declares its length at its beginning.
The walk finds the parts of a generated hello when every part is as long as it declares.
-/

namespace QVPN

open BigEndian Fragments Memory

/-- A part of a one-byte length and as many bytes. -/
def Counted8 (part : List UByte) : Prop :=
  ∃ (length : UByte) (body : List UByte), part = length :: body ∧ length.toNat = body.length

/-- A part of a two-byte length and as many bytes. -/
def Counted16 (part : List UByte) : Prop :=
  ∃ (length : UShort) (body : List UByte),
    part = bytes16 length ++ body ∧ length.toNat = body.length

namespace TLS13HelloPacketScheme

/-- The ranges of a scheme in wire order. -/
def ranges (scheme : TLS13HelloPacketScheme) : List (ℕ × ℕ) :=
  [scheme.random, scheme.session, scheme.ciphers, scheme.compressions, scheme.extensions]

/-- The fields up to the compressions, as their views measure them. -/
def frontReaders : List (List UByte → ℕ → Except Fault ℕ) :=
  [fun _ _ => .ok TLSRandomView.getTlsRandomFullLength.toNat,
    fun mem pos => UInt32.toNat <$> TLSSessionIDView.getTlsIdFullLength mem pos,
    fun mem pos => UInt16.toNat <$> TLSCipherSuitView.getTlsCiphersFullLength mem pos,
    fun mem pos => UInt16.toNat <$> TLSCompressionView.getTlsCompressionsFullLength mem pos]

/-- The extensions, as their view measures them. -/
def extensionsReader (mem : List UByte) (pos : ℕ) : Except Fault ℕ :=
  UInt16.toNat <$> TLSExtensionsView.getTlsExtensionsFullLength mem pos

end TLS13HelloPacketScheme

open TLS13HelloPacketScheme

/-- Parsing a hello is a walk over its fields. -/
theorem walk_unifiedParseClientScheme (mem : List UByte) (first : ℕ) :
    walk mem first 2 (frontReaders ++ [extensionsReader]) =
      ranges <$> unifiedParseClientScheme mem first := by
  simp only [frontReaders, List.cons_append, List.nil_append, walk, extensionsReader, ok_bind,
    bind_map_left, unifiedParseClientScheme, map_bind, map_pure, bind_assoc, pure_bind]
  rfl

/-- A random field has a fixed length. -/
theorem measures_random {part : List UByte} (h : part.length = 32) :
    Measures (fun _ _ => .ok TLSRandomView.getTlsRandomFullLength.toNat) part := by
  intro before after
  rw [h]
  rfl

/-- The view of a session id sees a counted part. -/
theorem measures_session {part : List UByte} (h : Counted8 part) :
    Measures (fun mem pos => UInt32.toNat <$> TLSSessionIDView.getTlsIdFullLength mem pos)
      part := by
  obtain ⟨n, body, rfl, hn⟩ := h
  intro before after
  have hread : readAt (before ++ n :: body ++ after) before.length = .ok n :=
    readAt_split before (body ++ after) (by simp) rfl
  have hsize : (n.toUInt32 + 1).toNat = (n :: body).length := by
    have hlt := n.toNat_lt
    rw [UInt32.toNat_add, UInt8.toNat_toUInt32, List.length_cons, ← hn]
    simp
    omega
  simp only [TLSSessionIDView.getTlsIdFullLength, hread, ok_bind, ← hsize]
  rfl

/-- The view of the ciphers sees a counted part, if its own size has sixteen bits. -/
theorem measures_ciphers {part : List UByte} (h : Counted16 part) (hlt : part.length < 65536) :
    Measures (fun mem pos => UInt16.toNat <$> TLSCipherSuitView.getTlsCiphersFullLength mem pos)
      part := by
  obtain ⟨n, body, rfl, hn⟩ := h
  intro before after
  have hread : read16 (before ++ (bytes16 n ++ body) ++ after) before.length = .ok n :=
    read16_split before (body ++ after) (by simp) rfl
  rw [List.length_append, bytes16_length] at hlt
  have hsize : (n + 2).toNat = (bytes16 n ++ body).length := by
    rw [UInt16.toNat_add, List.length_append, bytes16_length, ← hn]
    simp
    omega
  simp only [TLSCipherSuitView.getTlsCiphersFullLength, hread, ok_bind, ← hsize]
  rfl

/-- The view of the compressions sees a counted part. -/
theorem measures_compressions {part : List UByte} (h : Counted8 part) :
    Measures (fun mem pos =>
      UInt16.toNat <$> TLSCompressionView.getTlsCompressionsFullLength mem pos) part := by
  obtain ⟨n, body, rfl, hn⟩ := h
  intro before after
  have hread : readAt (before ++ n :: body ++ after) before.length = .ok n :=
    readAt_split before (body ++ after) (by simp) rfl
  have hsize : (n.toUInt16 + 1).toNat = (n :: body).length := by
    have hlt := n.toNat_lt
    rw [UInt16.toNat_add, UInt8.toNat_toUInt16, List.length_cons, ← hn]
    simp
    omega
  simp only [TLSCompressionView.getTlsCompressionsFullLength, hread, ok_bind, ← hsize]
  rfl

/-- The view of the extensions sees a counted part, if its own size has sixteen bits. -/
theorem measures_extensions {part : List UByte} (h : Counted16 part) (hlt : part.length < 65536) :
    Measures extensionsReader part := measures_ciphers h hlt

namespace TLSTools

/-- The helper leaves room for the header only in the narrowed length. -/
theorem headedBytes_eq_ok_iff {bits : ℕ} {draw : ℕ → UByte} {fullLength : ℕ}
    {header part : List UByte} :
    headedBytes bits draw fullLength header = .ok part ↔
      header.length ≤ fullLength % 2 ^ bits ∧
        part = header ++ (List.range (fullLength % 2 ^ bits - header.length)).map draw := by
  rw [headedBytes, vectorBytesGenerator, bytesGenerator]
  split
  · next hle =>
    have hwritten := overwrite_append [] (List.replicate header.length 0) header
      ((List.range (fullLength % 2 ^ bits - header.length)).map draw) rfl (by simp)
    rw [List.length_nil] at hwritten
    rw [ok_bind, ← List.nil_append (List.replicate header.length (0 : UByte) ++ _),
      ← List.append_assoc, hwritten, Except.ok.injEq, List.nil_append]
    exact ⟨fun h => ⟨hle, h.symm⟩, fun h => h.2.symm⟩
  · next hlt =>
    rw [error_bind]
    simp [hlt]

/-- A generated part is as long as the narrowed length says. -/
theorem headedBytes_length {bits : ℕ} {draw : ℕ → UByte} {fullLength : ℕ}
    {header part : List UByte} (h : headedBytes bits draw fullLength header = .ok part) :
    part.length = fullLength % 2 ^ bits := by
  obtain ⟨hroom, rfl⟩ := headedBytes_eq_ok_iff.mp h
  rw [List.length_append, List.length_map, List.length_range, Nat.add_sub_cancel' hroom]

/-- A part whose full length survives the narrowing is complete. -/
theorem headedBytes_of_lt {bits : ℕ} (draw : ℕ → UByte) {n : ℕ} {header : List UByte}
    (h : n + header.length < 2 ^ bits) :
    headedBytes bits draw (n + header.length) header =
      .ok (header ++ (List.range n).map draw) := by
  rw [headedBytes_eq_ok_iff, Nat.mod_eq_of_lt h, Nat.add_sub_cancel]
  exact ⟨Nat.le_add_left _ _, rfl⟩

/-- A part with a one-byte length is generated, and counted, unless the length is the largest. -/
theorem headedBytes_byte_iff (draw : ℕ → UByte) {length : UByte} :
    (∃ part, headedBytes 8 draw (length.toNat + 1) [length] = .ok part ∧ Counted8 part) ↔
      length.toNat ≠ 255 := by
  have hlt := length.toNat_lt
  constructor
  · rintro ⟨part, hpart, -⟩ hlength
    have hroom := (headedBytes_eq_ok_iff.mp hpart).1
    rw [hlength] at hroom
    cases hroom
  · intro h
    have hfits : length.toNat + [length].length < 2 ^ 8 := by
      rw [List.length_singleton]
      omega
    exact ⟨_, headedBytes_of_lt draw hfits, length, _, rfl, by simp⟩

end TLSTools

/-- A part of ciphers is generated, and counted, only if one byte holds its full length. -/
theorem TLSCipherSuit.counted_iff (draw : ℕ → UByte) {length : UShort} :
    (∃ part, TLSCipherSuit.generateObjectBytesOfLength draw length = .ok part ∧
      Counted16 part) ↔ length.toNat ≤ 253 := by
  constructor
  · rintro ⟨part, hpart, declared, body, hdeclared, hbody⟩
    obtain ⟨hroom, hgenerated⟩ := TLSTools.headedBytes_eq_ok_iff.mp hpart
    obtain ⟨hheader, hdrawn⟩ := List.append_inj (hdeclared.symm.trans hgenerated) rfl
    have hlength : declared = length := by
      rw [← join_hi_lo declared, ← join_hi_lo length]
      simp only [bytes16, List.cons.injEq, and_true] at hheader
      rw [hheader.1, hheader.2]
    rw [hdrawn, hlength, List.length_map, List.length_range, bytes16_length] at hbody
    rw [bytes16_length] at hroom
    omega
  · intro h
    have hfits : length.toNat + (bytes16 length).length < 2 ^ 8 := by
      rw [bytes16_length]
      omega
    exact ⟨_, TLSTools.headedBytes_of_lt draw hfits, length, _, rfl, by simp⟩

/-- A key share is generated if sixteen bits count its bytes. -/
theorem exists_keyShareEntry (draw : ℕ → UByte) {length : UShort} (keyType : UShort)
    (h : 4 + length.toNat < 65536) :
    ∃ entry, TLSKeyShareEntry.generateObjectBytesOfLength draw length keyType = .ok entry ∧
      entry.length = 4 + length.toNat := by
  have hheader : (bytes16 keyType ++ bytes16 length).length = 4 := rfl
  have hfits : length.toNat + (bytes16 keyType ++ bytes16 length).length < 2 ^ 16 := by
    rw [hheader]
    omega
  refine ⟨_, TLSTools.headedBytes_of_lt draw hfits, ?_⟩
  rw [List.length_append, hheader, List.length_map, List.length_range]

/-- The key shares of a strategy are generated as long as sixteen bits count them. -/
theorem exists_keyShareEntries (draw : ℕ → ℕ → UByte) (keyShare : List (UShort × UShort)) (n : ℕ)
    (h : (keyShare.map fun share => 4 + share.2.toNat).sum < 65536) :
    ∃ entries, ((keyShare.zipIdx n).mapM fun entry =>
      TLSKeyShareEntry.generateObjectBytesOfLength (draw entry.2) entry.1.2 entry.1.1) =
        .ok entries ∧
      entries.flatten.length = (keyShare.map fun share => 4 + share.2.toNat).sum := by
  induction keyShare generalizing n with
  | nil => exact ⟨[], rfl, rfl⟩
  | cons share keyShare ih =>
    obtain ⟨keyType, length⟩ := share
    rw [List.map_cons, List.sum_cons] at h ⊢
    dsimp only at h ⊢
    obtain ⟨entries, hentries, hsize⟩ := ih (n + 1) (by omega)
    obtain ⟨entry, hentry, hlength⟩ :=
      exists_keyShareEntry (draw n) keyType (show 4 + length.toNat < 65536 by omega)
    refine ⟨entry :: entries, ?_, ?_⟩
    · rw [List.zipIdx_cons, List.mapM_cons, hentry, hentries]
      rfl
    · rw [List.flatten_cons, List.length_append, hlength, hsize]

namespace TLS13ClientHelloGenStrategy

/-- The bytes the extensions of a strategy take. -/
def extensionsSize (strategy : TLS13ClientHelloGenStrategy) : ℕ :=
  (4 + (1 + 2 * strategy.getSupportedVersions.length)) +
    (4 + (2 + (strategy.getKeyShare.map fun share => 4 + share.2.toNat).sum)) +
    (4 + (2 + (strategy.getSniHosts.map fun host => 3 + host.length).sum))

/-- The lists of a strategy leave room for the fixed parts of a hello in the sixteen bits that
count the bytes of a record. -/
def ListsFitRecord (strategy : TLS13ClientHelloGenStrategy) : Prop :=
  4 + (2 + 32 + 1 + 2 + 1 + 2 + strategy.extensionsSize) ≤ 65535

instance (strategy : TLS13ClientHelloGenStrategy) : Decidable strategy.ListsFitRecord :=
  inferInstanceAs (Decidable (_ ≤ _))

end TLS13ClientHelloGenStrategy

/-- An entry has its type and its length in front of the host. -/
theorem sniEntry_length (host : List UByte) :
    (TLSServerNameIndicationEntry.generateObjectBytes host).length = 3 + host.length := by
  rw [TLSServerNameIndicationEntry.generateObjectBytes, List.length_cons, List.length_append,
    bytes16_length]
  omega

/-- No host of a list that fits is left out. -/
theorem sniHosts_length {hosts : List (List UByte)}
    (h : (hosts.map fun host => 3 + host.length).sum < 65536) :
    (TLSServerNameIndicationExtension.generateObjectBytesOfHosts hosts).length =
      2 + (hosts.map fun host => 3 + host.length).sum := by
  have hcount : hosts.length ≤ (hosts.map fun host => 3 + host.length).sum := by
    calc hosts.length = (hosts.map fun host => 3 + host.length).length := List.length_map _ |>.symm
      _ ≤ _ := List.length_le_sum_of_one_le _ (by simp; omega)
  have hall : (UInt16.ofNat hosts.length).toNat = hosts.length :=
    ofNat_toNat_of_le (by omega)
  rw [TLSServerNameIndicationExtension.generateObjectBytesOfHosts, hall, List.take_length,
    TLSServerNameIndicationExtension.generateObjectBytes, List.length_append, bytes16_length,
    List.length_flatMap]
  simp only [sniEntry_length]

/-- An extension has its type and its length in front of its data. -/
theorem extension_length (extType : UShort) (ext : List UByte) :
    (TLSExtension.generateObjectBytes extType ext).length = 4 + ext.length := by
  rw [TLSExtension.generateObjectBytes, List.length_append, List.length_append, bytes16_length,
    bytes16_length]

theorem supportedVersions_length (versions : List UShort) :
    (TLSSupportedVersionsClientHelloExtension.generateObjectBytes versions).length =
      1 + 2 * versions.length := by
  rw [TLSSupportedVersionsClientHelloExtension.generateObjectBytes, List.length_cons,
    List.length_flatMap]
  simp only [bytes16_length, List.map_const', List.sum_replicate_nat]
  omega

/-- The extensions of lists that fit are a counted part. -/
theorem exists_generateExtensions {strategy : TLS13ClientHelloGenStrategy} (draws : HelloDraws)
    (h : strategy.ListsFitRecord) :
    ∃ part, TLS13ClientHello.generateExtensions strategy draws = .ok part ∧ Counted16 part ∧
      part.length < 65536 := by
  unfold TLS13ClientHelloGenStrategy.ListsFitRecord
    TLS13ClientHelloGenStrategy.extensionsSize at h
  obtain ⟨entries, hentries, hshares⟩ :=
    exists_keyShareEntries draws.keyExchange strategy.getKeyShare 0 (by omega)
  have hhosts : (TLSServerNameIndicationExtension.generateObjectBytesOfHosts
      strategy.getSniHosts).length = _ := sniHosts_length (by omega)
  let exts := [
    TLSExtension.generateObjectBytes TLSExtensionType.SUPPORTED_VERSIONS
      (TLSSupportedVersionsClientHelloExtension.generateObjectBytes strategy.getSupportedVersions),
    TLSExtension.generateObjectBytes TLSExtensionType.KEY_SHARE
      (TLSKeyShareClientHello.generateObjectBytes entries),
    TLSExtension.generateObjectBytes TLSExtensionType.SERVER_NAME
      (TLSServerNameIndicationExtension.generateObjectBytesOfHosts strategy.getSniHosts)]
  have hgenerated : TLS13ClientHello.generateExtensions strategy draws =
      .ok (TLSExtensions.generateObjectBytes exts) := by
    rw [TLS13ClientHello.generateExtensions,
      TLSKeyShareClientHello.generateObjectBytesOfKeyShare, hentries]
    rfl
  have hsize : exts.flatten.length + 2 < 65536 := by
    simp only [exts, List.flatten_cons, List.flatten_nil, List.length_append, List.length_nil,
      extension_length, supportedVersions_length, TLSKeyShareClientHello.generateObjectBytes,
      bytes16_length, hshares, hhosts]
    omega
  refine ⟨_, hgenerated, ⟨_, _, rfl, ?_⟩, ?_⟩
  · exact ofNat_toNat_of_le (by omega)
  · rw [TLSExtensions.generateObjectBytes, List.length_append, bytes16_length]
    omega

/-- The ranges of a parsed hello follow each other from byte two to the end of its bytes, and hold
the parts that were generated. -/
structure TLS13ClientHelloParts.FoundBy (parts : TLS13ClientHelloParts) (objBytes : List UByte)
    (scheme : TLS13HelloPacketScheme) : Prop where
  random_begin : scheme.random.1 = 2
  session_begin : scheme.session.1 = scheme.random.2
  ciphers_begin : scheme.ciphers.1 = scheme.session.2
  compressions_begin : scheme.compressions.1 = scheme.ciphers.2
  extensions_begin : scheme.extensions.1 = scheme.compressions.2
  extensions_end : scheme.extensions.2 = objBytes.length
  held : (scheme.ranges.mapM fun range => slice objBytes range.1 range.2) =
    .ok [parts.random, parts.session, parts.cipher, parts.compres, parts.extensions]

/-- Every part has as many bytes as it declares. -/
structure TLS13ClientHelloParts.Declared (parts : TLS13ClientHelloParts) : Prop where
  random : parts.random.length = TLSRandomView.getTlsRandomFullLength.toNat
  session : Counted8 parts.session
  cipher : Counted16 parts.cipher
  compres : Counted8 parts.compres
  extensions : Counted16 parts.extensions

/-- A generated hello is parsed into the parts it was generated from, each of the declared
length. -/
def ParsesIntoParts (strategy : TLS13ClientHelloGenStrategy) (draws : HelloDraws) : Prop :=
  ∃ parts objBytes scheme,
    TLS13ClientHello.generateParts strategy draws = .ok parts ∧
    TLS13ClientHello.generateObjectBytesOfStrategy strategy draws = .ok objBytes ∧
    unifiedParseClientScheme objBytes 0 = .ok scheme ∧
    parts.FoundBy objBytes scheme ∧ parts.Declared

/-- Parts of the declared lengths are found. -/
theorem TLS13ClientHelloParts.Declared.foundBy {parts : TLS13ClientHelloParts}
    (h : parts.Declared) (hversion : parts.legacyVersion.length = 2)
    (hcipher : parts.cipher.length < 65536) (hextensions : parts.extensions.length < 65536) :
    ∃ scheme, unifiedParseClientScheme parts.objBytes 0 = .ok scheme ∧
      parts.FoundBy parts.objBytes scheme := by
  let fields := [parts.random, parts.session, parts.cipher, parts.compres, parts.extensions]
  have hmeasured : List.Forall₂ Measures (frontReaders ++ [extensionsReader]) fields :=
    .cons (measures_random h.random) <| .cons (measures_session h.session) <|
      .cons (measures_ciphers h.cipher hcipher) <| .cons (measures_compressions h.compres) <|
        .cons (measures_extensions h.extensions hextensions) .nil
  have hlayout : parts.objBytes = parts.legacyVersion ++ fields.flatten := by
    simp [TLS13ClientHelloParts.objBytes, fields]
  have hwalk : walk parts.objBytes 0 2 (frontReaders ++ [extensionsReader]) =
      .ok (spans 2 fields) := by
    have hwalk := walk_measured hmeasured [] [] parts.legacyVersion []
      (show parts.objBytes = _ by simpa using hlayout)
    rw [List.append_nil, List.length_nil, hversion] at hwalk
    rw [hwalk]
    exact congrArg Except.ok (List.append_nil _)
  rw [walk_unifiedParseClientScheme] at hwalk
  obtain ⟨scheme, hscheme, hranges⟩ := map_eq_ok_iff.mp hwalk
  have hheld := mapM_slice_spans parts.legacyVersion fields
  rw [hversion, ← hranges, ← hlayout] at hheld
  have hlength : parts.objBytes.length = 2 + fields.flatten.length := by
    rw [hlayout, List.length_append, hversion]
  simp only [ranges, fields, spans, List.cons.injEq, and_true] at hranges
  obtain ⟨hrandom, hsession, hciphers, hcompressions, hextensions⟩ := hranges
  refine ⟨scheme, hscheme, ?_, ?_, ?_, ?_, ?_, ?_, hheld⟩ <;>
    simp only [hrandom, hsession, hciphers, hcompressions, hextensions, hlength]
  simp only [fields, List.flatten_cons, List.flatten_nil, List.length_append, List.length_nil]
  omega

/-- The random part is always generated. -/
theorem exists_random (time : UInt) (draw : ℕ → UByte) :
    ∃ part, TLSRandom.generateObjectBytes time draw = .ok part ∧
      part.length = TLSRandomView.getTlsRandomFullLength.toNat :=
  ⟨_, rfl, by simp; rfl⟩

/-- The parts of a hello are generated if each of them is. -/
theorem generateParts_eq_ok_iff {strategy : TLS13ClientHelloGenStrategy} {draws : HelloDraws}
    {parts : TLS13ClientHelloParts} :
    TLS13ClientHello.generateParts strategy draws = .ok parts ↔
      parts.legacyVersion = bytes16 strategy.getLegacyVersion ∧
      TLSRandom.generateObjectBytes draws.time draws.random = .ok parts.random ∧
      TLSSessionID.generateObjectBytesOfLength draws.session strategy.getSessionLength =
        .ok parts.session ∧
      TLSCipherSuit.generateObjectBytesOfLength draws.cipher strategy.getCipherLength =
        .ok parts.cipher ∧
      TLSCompression.generateObjectBytesOfLength draws.compres
        strategy.getCompressionLength.toUInt8 = .ok parts.compres ∧
      TLS13ClientHello.generateExtensions strategy draws = .ok parts.extensions := by
  simp only [TLS13ClientHello.generateParts, bind_eq_ok_iff]
  constructor
  · rintro ⟨random, hrandom, session, hsession, cipher, hcipher, compres, hcompres, extensions,
      hextensions, hparts⟩
    cases Except.ok.inj hparts
    exact ⟨rfl, hrandom, hsession, hcipher, hcompres, hextensions⟩
  · rintro ⟨hversion, hrandom, hsession, hcipher, hcompres, hextensions⟩
    refine ⟨_, hrandom, _, hsession, _, hcipher, _, hcompres, _, hextensions, ?_⟩
    rw [← hversion]
    rfl

/-- The parts of a hello are generated and declared exactly when neither the length of the session
id nor the byte of the compressions is the largest, and one byte holds the full length of the
ciphers. -/
theorem generateParts_declared_iff {strategy : TLS13ClientHelloGenStrategy} (draws : HelloDraws)
    (h : strategy.ListsFitRecord) :
    (∃ parts, TLS13ClientHello.generateParts strategy draws = .ok parts ∧ parts.Declared) ↔
      strategy.getSessionLength.toNat ≠ 255 ∧ strategy.getCipherLength.toNat ≤ 253 ∧
        strategy.getCompressionLength.toNat % 256 ≠ 255 := by
  rw [← UInt16.toNat_toUInt8, ← TLSCipherSuit.counted_iff draws.cipher,
    ← TLSTools.headedBytes_byte_iff draws.session, ← TLSTools.headedBytes_byte_iff draws.compres]
  constructor
  · rintro ⟨parts, hparts, hdeclared⟩
    obtain ⟨-, -, hsession, hcipher, hcompres, -⟩ := generateParts_eq_ok_iff.mp hparts
    exact ⟨⟨_, hsession, hdeclared.session⟩, ⟨_, hcipher, hdeclared.cipher⟩,
      _, hcompres, hdeclared.compres⟩
  · rintro ⟨⟨session, hsession, hsession'⟩, ⟨cipher, hcipher, hcipher'⟩, compres, hcompres,
      hcompres'⟩
    obtain ⟨random, hrandom, hrandom'⟩ := exists_random draws.time draws.random
    obtain ⟨extensions, hextensions, hextensions', -⟩ := exists_generateExtensions draws h
    exact ⟨⟨_, random, session, cipher, compres, extensions⟩,
      generateParts_eq_ok_iff.mpr ⟨rfl, hrandom, hsession, hcipher, hcompres, hextensions⟩,
      hrandom', hsession', hcipher', hcompres', hextensions'⟩

/-- The version of a generated hello has two bytes, and its ciphers and extensions can be counted in
sixteen bits. -/
theorem generateParts_fit {strategy : TLS13ClientHelloGenStrategy} {draws : HelloDraws}
    (h : strategy.ListsFitRecord) {parts : TLS13ClientHelloParts}
    (hparts : TLS13ClientHello.generateParts strategy draws = .ok parts) :
    parts.legacyVersion.length = 2 ∧ parts.cipher.length < 65536 ∧
      parts.extensions.length < 65536 := by
  obtain ⟨hversion, -, -, hcipher, -, hextensions⟩ := generateParts_eq_ok_iff.mp hparts
  obtain ⟨extensions, hgenerated, -, hfits⟩ := exists_generateExtensions draws h
  cases hextensions.symm.trans hgenerated
  have hlength := TLSTools.headedBytes_length hcipher
  exact ⟨by rw [hversion, bytes16_length], by omega, hfits⟩

/-- A hello whose parts are as long as they declare is parsed into them. -/
theorem parsesIntoParts_of_declared {strategy : TLS13ClientHelloGenStrategy} {draws : HelloDraws}
    (h : strategy.ListsFitRecord) {parts : TLS13ClientHelloParts}
    (hparts : TLS13ClientHello.generateParts strategy draws = .ok parts)
    (hdeclared : parts.Declared) : ParsesIntoParts strategy draws := by
  obtain ⟨hversion, hcipher, hextensions⟩ := generateParts_fit h hparts
  obtain ⟨scheme, hscheme, hfound⟩ := hdeclared.foundBy hversion hcipher hextensions
  refine ⟨parts, parts.objBytes, scheme, hparts, ?_, hscheme, hfound, hdeclared⟩
  rw [TLS13ClientHello.generateObjectBytesOfStrategy, hparts]
  rfl

/-- A hello whose lists fit a record is parsed into the parts it was generated from exactly when
its session length is not 255, its ciphers have at most 253 bytes and its compression length is
not 255 modulo 256. -/
theorem parsesIntoParts_iff (strategy : TLS13ClientHelloGenStrategy) (draws : HelloDraws)
    (h : strategy.ListsFitRecord) :
    ParsesIntoParts strategy draws ↔
      strategy.getSessionLength.toNat ≠ 255 ∧ strategy.getCipherLength.toNat ≤ 253 ∧
        strategy.getCompressionLength.toNat % 256 ≠ 255 := by
  rw [← generateParts_declared_iff draws h]
  constructor
  · rintro ⟨parts, -, -, hparts, -, -, -, hdeclared⟩
    exact ⟨parts, hparts, hdeclared⟩
  · rintro ⟨parts, hparts, hdeclared⟩
    exact parsesIntoParts_of_declared h hparts hdeclared

/-- Draws of zeros. -/
def zeroDraws : HelloDraws where
  time := 0
  random := fun _ => 0
  session := fun _ => 0
  cipher := fun _ => 0
  compres := fun _ => 0
  keyExchange := fun _ _ => 0

theorem parsesIntoParts_default :
    ParsesIntoParts TLS13DefaultClientHelloGenerationStrategy zeroDraws :=
  (parsesIntoParts_iff _ _ (by decide)).mpr (by decide)

/-- The default strategy with 256 bytes of ciphers. -/
def longCiphersStrategy : TLS13ClientHelloGenStrategy :=
  { TLS13DefaultClientHelloGenerationStrategy with getCipherLength := 256 }

/-- 256 bytes of ciphers are declared, none is present, and the parser leaves the hello. -/
theorem longCiphers_not_parsesIntoParts :
    longCiphersStrategy.ListsFitRecord ∧
      TLSCipherSuit.generateObjectBytesOfLength zeroDraws.cipher 256 = .ok [1, 0] ∧
      (do
        let objBytes ← TLS13ClientHello.generateObjectBytesOfStrategy longCiphersStrategy zeroDraws
        unifiedParseClientScheme objBytes 0) = .error .outOfBounds ∧
      ¬ParsesIntoParts longCiphersStrategy zeroDraws := by
  refine ⟨by decide, by decide, by decide, ?_⟩
  rintro ⟨parts, -, -, hparts, -, -, -, hdeclared⟩
  have hlengths := (generateParts_declared_iff zeroDraws (by decide)).mp ⟨parts, hparts, hdeclared⟩
  exact absurd hlengths (by decide)

end QVPN
