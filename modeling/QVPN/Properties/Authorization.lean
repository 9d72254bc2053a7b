import QVPN.Driver.Authorization
import QVPN.Properties.HelloRanges

/-!
# Authorization of a hello

The hello a client sends is read back by the server to the method, key and user it was built
from, whatever the random parts and the host are. On other bytes the server follows the length
bytes it finds: it reads only received bytes exactly when each of these lengths keeps the next
field inside.
-/

namespace QVPN

open BigEndian Fragments Memory TLS13HelloPacketScheme

/-- The credentials are read back from the session id built from them. -/
theorem readCredentials_cryptoData {mem : List UByte} {cred : Credentials} {d : ℕ}
    (pre rest : List UByte) (hcred : cred.key.length + cred.user.length + 4 ≤ 255)
    (hmem : mem = pre ++ cred.cryptoData ++ rest) (hd : d = pre.length) :
    QVPNServerDriver.readCredentials mem d = .ok cred := by
  obtain ⟨method, key, user⟩ := cred
  dsimp only at hcred
  have hkey : (UInt8.ofNat key.length).toNat = key.length := by
    simp
    omega
  have huser : (UInt8.ofNat user.length).toNat = user.length := by
    simp
    omega
  have hlayout : mem = pre ++ bytes16 method ++ (UInt8.ofNat key.length :: key ++
      (UInt8.ofNat user.length :: user ++ rest)) := by
    rw [hmem]
    simp [Credentials.cryptoData, bytes16]
  have hmethod : read16 mem d = .ok method := read16_split pre _ hlayout hd
  have hkeySize : readAt mem (d + 2) = .ok (UInt8.ofNat key.length) :=
    readAt_split (pre ++ bytes16 method) _ hlayout (by simp [hd])
  have hkeyBytes : slice mem (d + 3 : ℕ) (d + 3 + key.length : ℕ) = .ok key := by
    rw [show mem = (pre ++ bytes16 method ++ [UInt8.ofNat key.length]) ++ key ++
      (UInt8.ofNat user.length :: user ++ rest) by rw [hlayout]; simp]
    exact slice_append _ _ _ _ _ (by simp [hd]) (by simp [hd])
  have huserSize : readAt mem (d + 3 + key.length) = .ok (UInt8.ofNat user.length) :=
    readAt_split (pre ++ bytes16 method ++ UInt8.ofNat key.length :: key) (user ++ rest)
      (by rw [hlayout]; simp) (by simp [hd]; omega)
  have huserBytes : slice mem (d + 3 + key.length + 1 : ℕ)
      (d + 3 + key.length + 1 + user.length : ℕ) = .ok user := by
    rw [show mem = (pre ++ bytes16 method ++ UInt8.ofNat key.length :: key ++
      [UInt8.ofNat user.length]) ++ user ++ rest by rw [hlayout]; simp]
    exact slice_append _ _ _ _ _ (by simp [hd]; omega) (by simp [hd]; omega)
  rw [QVPNServerDriver.readCredentials, hmethod, ok_bind, hkeySize, ok_bind, hkey, hkeyBytes,
    ok_bind, huserSize, ok_bind]
  dsimp only
  rw [huser, huserBytes]
  rfl

/-- The hello view finds the session id of a generated hello behind the random bytes. -/
theorem unifiedParseClientScheme_generate (front : List UByte) (rnd : HelloRandom)
    (host : List UByte) {id : List UByte} (hid : id.length ≤ 255) :
    ∃ scheme, unifiedParseClientScheme
      (front ++ TLS13ClientHello.generateObjectBytes rnd host id) front.length = .ok scheme ∧
        scheme.session.1 = 34 := by
  obtain ⟨n, exts, hexts⟩ : ∃ n exts, helloExtensions rnd host = bytes16 n ++ exts := ⟨_, _, rfl⟩
  generalize hmem : front ++ TLS13ClientHello.generateObjectBytes rnd host id = mem
  let fields := [rnd.random, TLSSessionID.generateObjectBytes id,
    TLSCipherSuit.generateObjectBytes 34 rnd.ciphers,
    TLSCompression.generateObjectBytes 1 rnd.compressions]
  have hlayout : mem = front ++ bytes16 0x0303 ++ fields.flatten ++ (bytes16 n ++ exts) := by
    rw [← hmem, TLS13ClientHello.generateObjectBytes, hexts]
    simp [fields]
  have hlength : (UInt8.ofNat id.length).toNat = id.length := by
    simp
    omega
  have hciphers : (TLSCipherSuit.generateObjectBytes 34 rnd.ciphers).length < 65536 := by
    rw [TLSCipherSuit.generateObjectBytes, List.length_append, bytes16_length, rnd.ciphers_length]
    decide
  have hmeasured : List.Forall₂ Measures frontReaders fields :=
    .cons (measures_random rnd.random_length) <|
      .cons (measures_session ⟨_, id, rfl, hlength⟩) <|
        .cons (measures_ciphers ⟨34, _, rfl, rnd.ciphers_length.symm⟩ hciphers) <|
          .cons (measures_compressions ⟨1, _, rfl, rnd.compressions_length.symm⟩) .nil
  have hwalk := walk_measured hmeasured [extensionsReader] front (bytes16 0x0303) _ hlayout
  -- Nothing is known about the length of the extensions, but their view can read it.
  have hextensions : read16 mem (front.length + (2 + fields.flatten.length)) = .ok n :=
    read16_split (front ++ bytes16 0x0303 ++ fields.flatten) exts (by rw [hlayout]; simp)
      (by simp)
  rw [bytes16_length, walk_unifiedParseClientScheme, walk, extensionsReader,
    TLSExtensionsView.getTlsExtensionsFullLength, hextensions] at hwalk
  obtain ⟨scheme, hscheme, hranges⟩ := map_eq_ok_iff.mp hwalk
  simp only [ranges, fields, spans, List.cons_append, List.cons.injEq] at hranges
  refine ⟨scheme, hscheme, ?_⟩
  rw [hranges.2.1, rnd.random_length]

/-- A session id has a length byte, two method bytes and the two strings behind their length
bytes. -/
theorem cryptoData_length (cred : Credentials) :
    cred.cryptoData.length = cred.key.length + cred.user.length + 4 := by
  simp [Credentials.cryptoData]
  omega

/-- The server accepts the hello of every client and finds its method, key and user. -/
theorem authorize_initHello (rnd : HelloRandom) (host : List UByte) (cred : Credentials)
    (hcred : cred.key.length + cred.user.length + 4 ≤ 255) :
    QVPNServerDriver.authorize (QVPNClientDriver.initHello rnd host cred) = .ok (some cred) := by
  have hid : cred.cryptoData.length ≤ 255 := by rwa [cryptoData_length]
  generalize hhello : TLS13ClientHello.generateObjectBytes rnd host cred.cryptoData = hello
  generalize hsize : UInt32.ofNat hello.length = size
  generalize hlength : UInt16.ofNat (QVPNClientDriver.helloMessage rnd host cred).length = length
  have hfront : QVPNClientDriver.initHello rnd host cred =
      ([22, 3, 3] ++ bytes16 length ++ 1 :: bytes24 size) ++ hello := by
    rw [QVPNClientDriver.initHello, TLS13Record.generateHandshakeBytes, hlength,
      QVPNClientDriver.helloMessage, TLS13Message.generateObjectBytes, hhello, hsize]
    simp
  generalize QVPNClientDriver.initHello rnd host cred = received at hfront ⊢
  have hsession : readAt received 43 = .ok (UInt8.ofNat cred.cryptoData.length) :=
    readAt_split ([22, 3, 3] ++ bytes16 length ++ 1 :: bytes24 size ++ bytes16 0x0303 ++
      rnd.random) _ (by
        rw [hfront, ← hhello, TLS13ClientHello.generateObjectBytes, TLSSessionID.generateObjectBytes]
        simp
        rfl) (by simp [rnd.random_length, bytes24])
  have hcredentials : QVPNServerDriver.readCredentials received 44 = .ok cred := by
    apply readCredentials_cryptoData ([22, 3, 3] ++ bytes16 length ++ 1 :: bytes24 size ++
      bytes16 0x0303 ++ rnd.random ++ [UInt8.ofNat cred.cryptoData.length]) _ hcred
    · rw [hfront, ← hhello, TLS13ClientHello.generateObjectBytes, TLSSessionID.generateObjectBytes]
      simp
      rfl
    · simp [rnd.random_length, bytes24]
  obtain ⟨scheme, hscheme, hfirst⟩ := unifiedParseClientScheme_generate
    ([22, 3, 3] ++ bytes16 length ++ 1 :: bytes24 size) rnd host hid
  rw [hhello, ← hfront] at hscheme
  obtain ⟨v, hv⟩ : ∃ v, TLS13MessageView.getTlsMsgFullLength received 5 = .ok v := by
    rw [hfront]
    exact ⟨_, rfl⟩
  have hrecordType : readAt received 0 = .ok 22 := by
    rw [hfront]
    rfl
  have hmsgType : readAt received 5 = .ok 1 := by
    rw [hfront]
    rfl
  have hview : TLSSessionIDView.getTlsIdFullLength received (9 + scheme.session.1) =
      .ok ((UInt8.ofNat cred.cryptoData.length).toUInt32 + 1) := by
    rw [hfirst, TLSSessionIDView.getTlsIdFullLength, hsession]
    rfl
  have hstart : 9 + scheme.session.1 + 1 = 44 := by rw [hfirst]
  have hne : received.length ≠ 0 := by
    rw [hfront]
    exact Nat.succ_ne_zero _
  rw [QVPNServerDriver.authorize, if_neg hne, QVPNServerDriver.checkHello, hrecordType, ok_bind,
    if_neg (by decide)]
  dsimp only
  rw [hv, ok_bind, hmsgType, ok_bind, if_neg (by decide)]
  have hparse : unifiedParseClientScheme received (5 + 4) = .ok scheme := hscheme
  rw [hparse, ok_bind]
  rw [hview, ok_bind, hstart, hcredentials]
  rfl

/-- A client with an empty key, the user `bob` and the host `a.b`. -/
theorem authorize_initHello_bob :
    QVPNServerDriver.authorize (QVPNClientDriver.initHello
      ⟨.replicate 32 7, .replicate 34 8, [9], .replicate 32 10, rfl, rfl, rfl, rfl⟩
      "a.b".toUTF8.toList ⟨0, [], "bob".toUTF8.toList⟩) =
        .ok (some ⟨0, [], "bob".toUTF8.toList⟩) :=
  authorize_initHello _ _ _ (by decide +kernel)

/-- The fields of a hello at byte 9 that the server follows lie inside: the lengths of session
id, ciphers and compressions lead to the length of the extensions, and the sizes of key and user
to the end of the user. -/
def HelloInside (received : List UByte) : Prop :=
  let byte := fun i => received.getD i 0
  let ciphers := 44 + (byte 43).toNat
  let compressions := ciphers + (join (byte ciphers) (byte (ciphers + 1)) + 2).toNat
  let extensions := compressions + (byte compressions).toNat + 1
  let user := 47 + (byte 46).toNat
  ciphers + 1 < received.length ∧ extensions + 1 < received.length ∧
    user + 1 + (byte user).toNat ≤ received.length

/-- The received bytes reach as far as the server reads: for a handshake record the header of the
message; for a ClientHello its fields. -/
def AuthorizationInside (received : List UByte) : Prop :=
  received.getD 0 0 = 22 → 9 ≤ received.length ∧ (received.getD 5 0 = 1 → HelloInside received)

/-- A byte as a 32-bit number leaves room for its own length byte. -/
theorem byte_toUInt32_succ (b : UByte) : (b.toUInt32 + 1).toNat = b.toNat + 1 := by
  have h := b.toNat_lt
  rw [UInt32.toNat_add, UInt8.toNat_toUInt32]
  simp
  omega

theorem byte_toUInt16_succ (b : UByte) : (b.toUInt16 + 1).toNat = b.toNat + 1 := by
  have h := b.toNat_lt
  rw [UInt16.toNat_add, UInt8.toNat_toUInt16]
  simp
  omega

/-- Reading the credentials stays inside when the user does. -/
theorem legal_readCredentials (received : List UByte) (d : ℕ) :
    Legal (QVPNServerDriver.readCredentials received d) ↔
      let user := d + 3 + (received.getD (d + 2) 0).toNat
      user + 1 + (received.getD user 0).toNat ≤ received.length := by
  rw [QVPNServerDriver.readCredentials, legal_read16_bind, legal_readAt_bind 0, legal_slice_bind,
    legal_readAt_bind 0]
  dsimp only
  rw [legal_slice_bind]
  simp only [pure, Except.pure, legal_ok, and_true]
  constructor
  · rintro ⟨_, _, _, _, h⟩
    omega
  · intro h
    refine ⟨by omega, by omega, by omega, by omega, by omega⟩

/-- The session id starts behind the version and the random bytes. -/
theorem unifiedParseClientScheme_session {mem : List UByte} {first : ℕ}
    {scheme : TLS13HelloPacketScheme} (h : unifiedParseClientScheme mem first = .ok scheme) :
    scheme.session.1 = 34 := by
  obtain ⟨_, -, h⟩ := bind_eq_ok_iff.mp h
  obtain ⟨_, -, h⟩ := bind_eq_ok_iff.mp h
  obtain ⟨_, -, h⟩ := bind_eq_ok_iff.mp h
  obtain ⟨_, -, h⟩ := bind_eq_ok_iff.mp h
  cases Except.ok.inj h
  rfl

/-- Finding the fields of the hello stays inside when the length of the extensions does. -/
theorem legal_unifiedParseClientScheme (mem : List UByte) :
    Legal (unifiedParseClientScheme mem 9) ↔
      let byte := fun i => mem.getD i 0
      let ciphers := 44 + (byte 43).toNat
      let compressions := ciphers + (join (byte ciphers) (byte (ciphers + 1)) + 2).toNat
      let extensions := compressions + (byte compressions).toNat + 1
      ciphers + 1 < mem.length ∧ extensions + 1 < mem.length := by
  have hrandomEnd : 2 + TLSRandomView.getTlsRandomFullLength.toNat = 34 := rfl
  simp only [unifiedParseClientScheme, TLSSessionIDView.getTlsIdFullLength,
    TLSCipherSuitView.getTlsCiphersFullLength, TLSCompressionView.getTlsCompressionsFullLength,
    TLSExtensionsView.getTlsExtensionsFullLength, bind_assoc, pure_bind, hrandomEnd,
    legal_readAt_bind (0 : UByte), legal_read16_bind, byte_toUInt32_succ, byte_toUInt16_succ]
  rw [show 9 + 34 = 43 from rfl]
  generalize (mem.getD 43 0).toNat = session
  rw [show 9 + (34 + (session + 1)) = 44 + session by omega]
  generalize (join (mem.getD (44 + session) 0) (mem.getD (44 + session + 1) 0) + 2).toNat = ciphers
  rw [show 9 + (34 + (session + 1) + ciphers) = 44 + session + ciphers by omega]
  generalize (mem.getD (44 + session + ciphers) 0).toNat = compressions
  rw [show 9 + (34 + (session + 1) + ciphers + (compressions + 1)) =
    44 + session + ciphers + compressions + 1 by omega]
  simp only [pure, Except.pure, legal_ok, and_true]
  constructor
  · rintro ⟨_, hciphers, _, hextensions⟩
    exact ⟨hciphers, hextensions⟩
  · rintro ⟨hciphers, hextensions⟩
    exact ⟨by omega, hciphers, by omega, hextensions⟩

/-- A ClientHello stays inside when its fields do. -/
theorem legal_hello (received : List UByte) :
    Legal (do
      let scheme ← unifiedParseClientScheme received (5 + 4)
      let session := 5 + 4 + scheme.session.1
      let _ ← TLSSessionIDView.getTlsIdFullLength received session
      let cred ← QVPNServerDriver.readCredentials received (session + 1)
      return some cred) ↔ HelloInside received := by
  have hparse := legal_unifiedParseClientScheme received
  have hcred := legal_readCredentials received 44
  have hrest (scheme : TLS13HelloPacketScheme) (hscheme : scheme.session.1 = 34) :
      Legal (do
        let session := 5 + 4 + scheme.session.1
        let _ ← TLSSessionIDView.getTlsIdFullLength received session
        let cred ← QVPNServerDriver.readCredentials received (session + 1)
        return some cred) ↔
          43 < received.length ∧ Legal (QVPNServerDriver.readCredentials received 44) := by
    rw [hscheme]
    simp only [TLSSessionIDView.getTlsIdFullLength, bind_assoc, pure_bind,
      legal_readAt_bind (0 : UByte)]
    apply and_congr_right
    intro _
    cases QVPNServerDriver.readCredentials received (5 + 4 + 34 + 1) with
    | ok cred => exact ⟨fun _ => legal_ok _, fun _ => legal_ok _⟩
    | error e => exact ⟨fun h => absurd h (not_legal_error e), fun h => absurd h (not_legal_error e)⟩
  dsimp only at hparse hcred
  constructor
  · intro h
    obtain ⟨cred, h⟩ := h
    obtain ⟨scheme, hscheme, h⟩ := bind_eq_ok_iff.mp h
    obtain ⟨hciphers, hextensions⟩ := hparse.mp ⟨scheme, hscheme⟩
    obtain ⟨-, huser⟩ := (hrest scheme (unifiedParseClientScheme_session hscheme)).mp ⟨cred, h⟩
    exact ⟨hciphers, hextensions, hcred.mp huser⟩
  · rintro ⟨hciphers, hextensions, huser⟩
    obtain ⟨scheme, hscheme⟩ := hparse.mpr ⟨hciphers, hextensions⟩
    rw [hscheme, ok_bind]
    exact (hrest scheme (unifiedParseClientScheme_session hscheme)).mpr ⟨by omega, hcred.mpr huser⟩

/-- When something was received, the server reads received bytes only, exactly when they reach as
far as it reads. -/
theorem legal_checkHello {received : List UByte} (hpos : 0 < received.length) :
    Legal (QVPNServerDriver.checkHello received) ↔ AuthorizationInside received := by
  have hheader {p : Prop} : (5 + 1 < received.length ∧ 5 + 2 < received.length ∧
      5 + 3 < received.length ∧ 5 < received.length ∧ p) ↔ 9 ≤ received.length ∧ p := by
    constructor
    · rintro ⟨_, _, h, _, hp⟩
      exact ⟨by omega, hp⟩
    · rintro ⟨h, hp⟩
      exact ⟨by omega, by omega, by omega, by omega, hp⟩
  rw [QVPNServerDriver.checkHello, legal_readAt_bind 0, AuthorizationInside, and_iff_right hpos]
  by_cases htype : received.getD 0 0 = 22
  · rw [if_neg (not_not.mpr htype), imp_iff_right htype]
    simp only [TLS13MessageView.getTlsMsgFullLength, TLS13MessageView.getTlsMsgLength, bind_assoc,
      pure_bind, legal_readAt_bind (0 : UByte)]
    rw [hheader]
    apply and_congr_right
    intro _
    by_cases hmsg : received.getD 5 0 = 1
    · rw [if_neg (not_not.mpr hmsg), imp_iff_right hmsg]
      exact legal_hello received
    · rw [if_pos hmsg]
      exact ⟨fun _ h => absurd h hmsg, fun _ => legal_ok _⟩
  · rw [if_pos htype]
    exact ⟨fun _ h => absurd h htype, fun _ => legal_ok _⟩

/-- Authorization reads received bytes only, exactly when they reach as far as it reads: a connection
on which nothing is received is rejected before. -/
theorem authorize_legal_iff (received : List UByte) :
    Legal (QVPNServerDriver.authorize received) ↔ AuthorizationInside received := by
  rw [QVPNServerDriver.authorize]
  by_cases hempty : received.length = 0
  · rw [if_pos hempty]
    obtain rfl := List.eq_nil_of_length_eq_zero hempty
    exact ⟨fun _ htype => absurd htype (by decide), fun _ => legal_ok _⟩
  · rw [if_neg hempty]
    exact legal_checkHello (Nat.pos_of_ne_zero hempty)

/-- Behind a single received byte the server reads the size of a message that is not there. -/
theorem authorize_oneByte : ¬Legal (QVPNServerDriver.authorize [22]) := not_legal_error _

/-- A user name taken from a hello has at most as many bytes as its length byte can say. -/
theorem authorize_user_length {received : List UByte} {cred : Credentials}
    (h : QVPNServerDriver.authorize received = .ok (some cred)) : cred.user.length ≤ 255 := by
  have hread {d : ℕ} (hd : QVPNServerDriver.readCredentials received d = .ok cred) :
      cred.user.length ≤ 255 := by
    obtain ⟨_, -, hd⟩ := bind_eq_ok_iff.mp hd
    obtain ⟨_, -, hd⟩ := bind_eq_ok_iff.mp hd
    obtain ⟨_, -, hd⟩ := bind_eq_ok_iff.mp hd
    obtain ⟨userSize, -, hd⟩ := bind_eq_ok_iff.mp hd
    obtain ⟨user, huser, hd⟩ := bind_eq_ok_iff.mp hd
    cases Except.ok.inj hd
    have hlen := slice_length huser
    have hsize := userSize.toNat_lt
    dsimp only
    omega
  rw [QVPNServerDriver.authorize] at h
  split at h
  · cases Except.ok.inj h
  obtain ⟨_, -, h⟩ := bind_eq_ok_iff.mp h
  split at h
  · cases Except.ok.inj h
  · obtain ⟨_, -, h⟩ := bind_eq_ok_iff.mp h
    obtain ⟨_, -, h⟩ := bind_eq_ok_iff.mp h
    split at h
    · cases Except.ok.inj h
    · obtain ⟨_, -, h⟩ := bind_eq_ok_iff.mp h
      obtain ⟨_, -, h⟩ := bind_eq_ok_iff.mp h
      obtain ⟨_, hcred, h⟩ := bind_eq_ok_iff.mp h
      cases Except.ok.inj h
      exact hread hcred

end QVPN
