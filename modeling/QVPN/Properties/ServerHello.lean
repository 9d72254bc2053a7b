import QVPN.Properties.HelloRanges
import QVPN.Structures.ServerHello

/-!
# The hello of a server, read back

The parser of a server hello finds the fields where the generator put them, whatever the length of
the session id. The getter of the cipher suite takes the second byte from the end of the range,
which is where the compression method stands, so a cipher suite survives only if its low byte is
the compression method.
-/

namespace QVPN

open BigEndian Fragments Memory

/-- What a server hello is read back as: four getters and the end of the extensions. -/
structure TLS13ServerHelloFields where
  version : UShort
  sessionLength : UByte
  cipherSuite : UShort
  compressionMethod : UByte
  extensionsEnd : ℕ
  deriving DecidableEq, Repr

/-- The fields a strategy asks for, in a body of the given size. -/
def TLS13ServerHelloGenStrategy.fields (strategy : TLS13ServerHelloGenStrategy) (size : ℕ) :
    TLS13ServerHelloFields :=
  ⟨strategy.getLegacyVersion, strategy.getSessionLength, strategy.getCipherSuite,
    strategy.getCompressionMethod, size⟩

/-- The fields that the getters of the copying class return. -/
def TLS13ServerHelloPacketLittleEndian.fields (p : TLS13ServerHelloPacketLittleEndian) :
    Except Fault TLS13ServerHelloFields := do
  let version ← p.getTlsVersion
  let sessionLength ← p.getTlsIdLength
  let cipherSuite ← p.getTlsCipherSuite
  let compressionMethod ← p.getTlsCompressionMethod
  return ⟨version, sessionLength, cipherSuite, compressionMethod, p.scheme.extensions.2⟩

/-- The fields that the getters of the view return. -/
def TLS13ServerHelloPacketView.fields (p : TLS13ServerHelloPacketView) :
    Except Fault TLS13ServerHelloFields := do
  let version ← p.getTlsVersion
  let sessionLength ← p.getTlsIdLength
  let cipherSuite ← p.getTlsCipherSuite
  let compressionMethod ← p.getTlsCompressionMethod
  return ⟨version, sessionLength, cipherSuite, compressionMethod, p.scheme.extensions.2⟩

/-- A hello is generated, and both classes read back what was generated and find the end of the
extensions at the end of the body, the view wherever the body lies in memory. -/
def ServerHelloRoundTrips (strategy : TLS13ServerHelloGenStrategy) (draws : HelloDraws) : Prop :=
  ∃ objBytes, TLS13ServerHello.generateObjectBytes strategy draws = .ok objBytes ∧
    (TLS13ServerHelloPacketLittleEndian.ofBytes objBytes >>= fun p => p.fields) =
      .ok (strategy.fields objBytes.length) ∧
    ∀ before after,
      (TLS13ServerHelloPacketView.ofRange (before ++ objBytes ++ after) before.length
        (before.length + objBytes.length) >>= fun p => p.fields) =
          .ok (strategy.fields objBytes.length)

namespace TLS13HelloPacketScheme

/-- The fields of a server hello, as its parser measures them. -/
def serverReaders : List (List UByte → ℕ → Except Fault ℕ) :=
  [fun _ _ => .ok TLSRandomView.getTlsRandomFullLength.toNat,
    fun mem pos => UInt32.toNat <$> TLSSessionIDView.getTlsIdFullLength mem pos,
    fun _ _ => .ok 2, fun _ _ => .ok 1, extensionsReader]

end TLS13HelloPacketScheme

open TLS13HelloPacketScheme

/-- Parsing a server hello is a walk over its fields. -/
theorem walk_unifiedServerParseScheme (mem : List UByte) (first : ℕ) :
    walk mem first 2 serverReaders = ranges <$> unifiedServerParseScheme mem first := by
  simp only [serverReaders, walk, extensionsReader, ok_bind, bind_map_left, unifiedServerParseScheme,
    map_bind, map_pure, bind_assoc, pure_bind]
  rfl

/-- The parts of a server hello in wire order. -/
structure TLS13ServerHelloParts where
  version : UShort
  random : List UByte
  sessionLength : UByte
  session : List UByte
  cipherSuite : UShort
  compressionMethod : UByte
  extensions : List UByte
  random_length : random.length = 32
  session_length : sessionLength.toNat = session.length
  extensions_counted : Counted16 extensions
  extensions_small : extensions.length < 65536

namespace TLS13ServerHelloParts

variable (parts : TLS13ServerHelloParts)

/-- The fields behind the version. -/
def body : List (List UByte) :=
  [parts.random, parts.sessionLength :: parts.session, bytes16 parts.cipherSuite,
    [parts.compressionMethod], parts.extensions]

def objBytes : List UByte := bytes16 parts.version ++ parts.body.flatten

/-- What the getters return for such a hello. -/
def readBack : TLS13ServerHelloFields :=
  ⟨parts.version, parts.sessionLength, join (hi parts.cipherSuite) parts.compressionMethod,
    parts.compressionMethod, parts.objBytes.length⟩

/-- The parser finds the fields wherever the hello lies. -/
theorem unifiedServerParseScheme_eq (before after : List UByte) :
    ranges <$> unifiedServerParseScheme (before ++ parts.objBytes ++ after) before.length =
      .ok (spans 2 parts.body) := by
  have hmeasured : List.Forall₂ Measures serverReaders parts.body :=
    .cons (measures_random parts.random_length) <|
      .cons (measures_session ⟨_, _, rfl, parts.session_length⟩) <|
      .cons (fun _ _ => rfl) <| .cons (fun _ _ => rfl) <|
      .cons (measures_extensions parts.extensions_counted parts.extensions_small) .nil
  have hmem : before ++ parts.objBytes ++ after =
      before ++ bytes16 parts.version ++ parts.body.flatten ++ after := by
    rw [objBytes]
    simp only [List.append_assoc]
  have hwalk := walk_measured hmeasured [] before (bytes16 parts.version) after hmem
  rw [← walk_unifiedServerParseScheme]
  rw [List.append_nil, bytes16_length] at hwalk
  rw [hwalk]
  exact congrArg Except.ok (List.append_nil _)

/-- The getters read each field where it stands, the low byte of the cipher suite excepted. -/
theorem exists_scheme (before after : List UByte) :
    ∃ scheme, unifiedServerParseScheme (before ++ parts.objBytes ++ after) before.length =
        .ok scheme ∧ scheme.extensions.2 = parts.objBytes.length ∧
      TLS13ServerHelloPacket.getTlsVersion (before ++ parts.objBytes ++ after) before.length =
        .ok parts.version ∧
      TLS13ServerHelloPacket.getTlsIdLength (before ++ parts.objBytes ++ after) before.length
        scheme = .ok parts.sessionLength ∧
      TLS13ServerHelloPacket.getTlsCipherSuite (before ++ parts.objBytes ++ after) before.length
        scheme = .ok (join (hi parts.cipherSuite) parts.compressionMethod) ∧
      TLS13ServerHelloPacket.getTlsCompressionMethod (before ++ parts.objBytes ++ after)
        before.length scheme = .ok parts.compressionMethod := by
  obtain ⟨scheme, hscheme, hranges⟩ := map_eq_ok_iff.mp (parts.unifiedServerParseScheme_eq before after)
  simp only [ranges, body, spans, List.cons.injEq, and_true, List.length_cons, List.length_nil,
    bytes16_length, parts.random_length] at hranges
  obtain ⟨-, hsession, hciphers, hcompressions, hextensions⟩ := hranges
  have hsize : parts.objBytes.length = 38 + parts.session.length + parts.extensions.length := by
    simp only [objBytes, body, List.flatten_cons, List.flatten_nil, List.length_append,
      List.length_cons, List.length_nil, bytes16_length, parts.random_length]
    omega
  let front := before ++ bytes16 parts.version ++ parts.random
  let rest := parts.compressionMethod :: (parts.extensions ++ after)
  have hfront : front.length = before.length + 34 := by
    simp [front, parts.random_length]
  have hlayout : before ++ parts.objBytes ++ after =
      front ++ parts.sessionLength :: (parts.session ++ (bytes16 parts.cipherSuite ++ rest)) := by
    simp [objBytes, body, front, rest]
  have hcipher : before ++ parts.objBytes ++ after =
      (front ++ parts.sessionLength :: parts.session) ++ hi parts.cipherSuite ::
        lo parts.cipherSuite :: rest := by
    simp [hlayout, bytes16]
  -- the range of the cipher suite ends where the compression method stands
  have hmethod : readAt (before ++ parts.objBytes ++ after)
      (before.length + (37 + parts.session.length)) = .ok parts.compressionMethod := by
    refine readAt_split (front ++ parts.sessionLength :: (parts.session ++
      bytes16 parts.cipherSuite)) (parts.extensions ++ after) (by simp [hlayout, rest]) ?_
    simp [hfront]
    omega
  refine ⟨scheme, hscheme, ?_, ?_, ?_, ?_, ?_⟩
  · rw [hextensions, hsize]
    dsimp only
    omega
  · exact read16_split before (parts.body.flatten ++ after) (by simp [objBytes]) rfl
  · exact readAt_split front _ hlayout (by simp [hsession, hfront])
  · have hhigh : readAt (before ++ parts.objBytes ++ after) (before.length + scheme.ciphers.1) =
        .ok (hi parts.cipherSuite) :=
      readAt_split _ _ hcipher (by simp [hciphers, hfront]; omega)
    rw [TLS13ServerHelloPacket.getTlsCipherSuite, hhigh, ok_bind, hciphers,
      show 2 + 32 + (parts.session.length + 1) + 2 = 37 + parts.session.length by omega, hmethod]
    rfl
  · rw [TLS13ServerHelloPacket.getTlsCompressionMethod, hcompressions,
      show 2 + 32 + (parts.session.length + 1) + 2 = 37 + parts.session.length by omega, hmethod]

/-- The copying class reads a server hello back. -/
theorem object_fields :
    (TLS13ServerHelloPacketLittleEndian.ofBytes parts.objBytes >>= fun p => p.fields) =
      .ok parts.readBack := by
  obtain ⟨scheme, hscheme, hend, hversion, hsession, hcipher, hcompression⟩ :=
    parts.exists_scheme [] []
  rw [List.nil_append, List.append_nil, List.length_nil] at *
  rw [TLS13ServerHelloPacketLittleEndian.ofBytes, hscheme, ok_bind, pure_bind,
    TLS13ServerHelloPacketLittleEndian.fields, TLS13ServerHelloPacketLittleEndian.getTlsVersion,
    hversion, ok_bind, TLS13ServerHelloPacketLittleEndian.getTlsIdLength, hsession, ok_bind,
    TLS13ServerHelloPacketLittleEndian.getTlsCipherSuite, hcipher, ok_bind,
    TLS13ServerHelloPacketLittleEndian.getTlsCompressionMethod, hcompression, ok_bind, hend]
  rfl

/-- The view reads a server hello back wherever it lies. -/
theorem view_fields (before after : List UByte) :
    (TLS13ServerHelloPacketView.ofRange (before ++ parts.objBytes ++ after) before.length
      (before.length + parts.objBytes.length) >>= fun p => p.fields) = .ok parts.readBack := by
  obtain ⟨scheme, hscheme, hend, hversion, hsession, hcipher, hcompression⟩ :=
    parts.exists_scheme before after
  rw [TLS13ServerHelloPacketView.ofRange, hscheme, ok_bind, pure_bind,
    TLS13ServerHelloPacketView.fields, TLS13ServerHelloPacketView.getTlsVersion, hversion, ok_bind,
    TLS13ServerHelloPacketView.getTlsIdLength, hsession, ok_bind,
    TLS13ServerHelloPacketView.getTlsCipherSuite, hcipher, ok_bind,
    TLS13ServerHelloPacketView.getTlsCompressionMethod, hcompression, ok_bind, hend]
  rfl

end TLS13ServerHelloParts

/-- A word with another low byte is the same word only if it is the same low byte. -/
theorem join_hi_eq_iff (w : UShort) (b : UByte) : join (hi w) b = w ↔ lo w = b := by
  constructor
  · intro h
    rw [← lo_join (hi w) b, h]
  · intro h
    rw [← h, join_hi_lo]

/-- The bytes of a strategy whose session length is not the largest. -/
theorem exists_serverHelloParts {strategy : TLS13ServerHelloGenStrategy} (draws : HelloDraws)
    (h : strategy.getSessionLength.toNat ≠ 255) :
    ∃ parts : TLS13ServerHelloParts,
      TLS13ServerHello.generateObjectBytes strategy draws = .ok parts.objBytes ∧
      ∀ size, strategy.fields size =
        ⟨parts.version, parts.sessionLength, parts.cipherSuite, parts.compressionMethod, size⟩ := by
  obtain ⟨random, hrandom, hrandom'⟩ := exists_random draws.time draws.random
  have hlt := strategy.getSessionLength.toNat_lt
  have hsession : TLSSessionID.generateObjectBytesOfLength draws.session strategy.getSessionLength =
      .ok ([strategy.getSessionLength] ++
        (List.range strategy.getSessionLength.toNat).map draws.session) :=
    TLSTools.headedBytes_of_lt draws.session (by rw [List.length_singleton]; omega)
  let parts : TLS13ServerHelloParts :=
    { version := strategy.getLegacyVersion
      random := random
      sessionLength := strategy.getSessionLength
      session := (List.range strategy.getSessionLength.toNat).map draws.session
      cipherSuite := strategy.getCipherSuite
      compressionMethod := strategy.getCompressionMethod
      extensions := TLS13ServerHello.generateExtensions strategy
      random_length := hrandom'
      session_length := by simp
      extensions_counted := ⟨6, _, rfl, rfl⟩
      extensions_small := show 8 < 65536 by omega }
  refine ⟨parts, ?_, fun _ => rfl⟩
  rw [TLS13ServerHello.generateObjectBytes, hrandom, ok_bind, hsession, ok_bind]
  simp [parts, TLS13ServerHelloParts.objBytes, TLS13ServerHelloParts.body]
  rfl

/-- A session id of the largest length cannot be generated. -/
theorem serverHello_not_generated {strategy : TLS13ServerHelloGenStrategy} (draws : HelloDraws)
    (h : strategy.getSessionLength.toNat = 255) (objBytes : List UByte) :
    TLS13ServerHello.generateObjectBytes strategy draws ≠ .ok objBytes := by
  intro hgenerated
  obtain ⟨random, -, hgenerated⟩ := bind_eq_ok_iff.mp hgenerated
  obtain ⟨session, hsession, -⟩ := bind_eq_ok_iff.mp hgenerated
  have hroom := (TLSTools.headedBytes_eq_ok_iff.mp hsession).1
  rw [h] at hroom
  cases hroom

/-- A server hello is read back as it was generated exactly when the session length is not 255 and
the low byte of the cipher suite is the compression method. -/
theorem serverHelloRoundTrips_iff (strategy : TLS13ServerHelloGenStrategy) (draws : HelloDraws) :
    ServerHelloRoundTrips strategy draws ↔ strategy.getSessionLength.toNat ≠ 255 ∧
      lo strategy.getCipherSuite = strategy.getCompressionMethod := by
  by_cases hsession : strategy.getSessionLength.toNat = 255
  · constructor
    · intro ⟨objBytes, hgenerated, _⟩
      exact absurd hgenerated (serverHello_not_generated draws hsession objBytes)
    · intro h
      exact absurd hsession h.1
  · obtain ⟨parts, hgenerated, hfields⟩ := exists_serverHelloParts draws hsession
    have hsame : parts.readBack = strategy.fields parts.objBytes.length ↔
        lo strategy.getCipherSuite = strategy.getCompressionMethod := by
      have hparts := hfields 0
      simp only [TLS13ServerHelloGenStrategy.fields, TLS13ServerHelloFields.mk.injEq] at hparts
      rw [hfields, TLS13ServerHelloParts.readBack, hparts.2.2.1, hparts.2.2.2.1, ← join_hi_eq_iff]
      simp
    rw [← hsame]
    constructor
    · intro ⟨objBytes, hgenerated', hobject, _⟩
      cases hgenerated.symm.trans hgenerated'
      exact ⟨hsession, Except.ok.inj (parts.object_fields.symm.trans hobject)⟩
    · intro ⟨_, h⟩
      refine ⟨parts.objBytes, hgenerated, ?_, fun before after => ?_⟩
      · rw [parts.object_fields, h]
      · rw [parts.view_fields, h]

/-- The cipher suite of the default strategy is read back without its low byte. -/
theorem defaultServerHello_not_roundTrips :
    (do
      let objBytes ← TLS13ServerHello.generateObjectBytes
        TLS13DefaultServerHelloGenerationStrategy zeroDraws
      let p ← TLS13ServerHelloPacketLittleEndian.ofBytes objBytes
      p.getTlsCipherSuite) = .ok 0xC000 ∧
    ¬ServerHelloRoundTrips TLS13DefaultServerHelloGenerationStrategy zeroDraws := by
  refine ⟨by decide, ?_⟩
  intro ⟨objBytes, hgenerated, hobject, _⟩
  have hread : (TLS13ServerHello.generateObjectBytes TLS13DefaultServerHelloGenerationStrategy
      zeroDraws >>= fun objBytes =>
        TLS13ServerHelloPacketLittleEndian.ofBytes objBytes >>= fun p => p.fields) =
      .ok ⟨0x0303, 32, 0xC000, 0, 78⟩ := by decide
  rw [hgenerated, ok_bind, hobject, Except.ok.injEq, TLS13ServerHelloGenStrategy.fields,
    TLS13ServerHelloFields.mk.injEq] at hread
  exact absurd hread.2.2.1 (by decide)

end QVPN
