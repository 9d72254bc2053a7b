import QVPN.Driver.Authorization
import QVPN.Lib.TlsFormat
import QVPN.Properties.HandshakeMessage

/-!
# What the format shows of a hello

The generator of a hello writes every field behind its length, and the format of TLS, which is
described apart from this program, reads the hello back: the session id with what identifies the
user, the name of the host, and the versions. The limits are those of the format: a session id of at
most 32 bytes, and a record of at most 2 ^ 14.
-/

namespace QVPN

open BigEndian Memory Prefixed QVPNClientDriver

theorem value_length16 {xs : List UByte} (h : xs.length ≤ 65535) :
    value (bytes16 (UInt16.ofNat xs.length)) = xs.length := by
  rw [value_bytes16, ofNat_toNat_of_le h]

theorem value_length8 {xs : List UByte} (h : xs.length ≤ 255) :
    value [UInt8.ofNat xs.length] = xs.length := by
  rw [value_byte, UInt8.toNat_ofNat', Nat.mod_eq_of_lt (by omega)]

theorem value_bytes24 {n : ℕ} (h : n < 2 ^ 24) : value (bytes24 (UInt32.ofNat n)) = n := by
  obtain ⟨b1, b2, b3, hbytes, hn⟩ := join32_bytes24 h
  rw [join32_toNat, UInt8.toNat_zero] at hn
  rw [hbytes, value, List.foldl_cons, List.foldl_cons, List.foldl_cons, List.foldl_nil]
  omega

/-- The extensions of a client's hello, by their types. -/
def helloExtensionParts (rnd : HelloRandom) (host : List UByte) : List (UShort × List UByte) :=
  [(TLSExtensionType.SUPPORTED_VERSIONS,
      TLSSupportedVersionsClientHelloExtension.generateObjectBytes
        [0x0304, 0x0303, 0x0302, 0x0301]),
    (TLSExtensionType.KEY_SHARE, TLSKeyShareClientHello.generateObjectBytes
      [TLSKeyShareEntry.generateObjectBytes 32 0x001D rnd.keyExchange]),
    (TLSExtensionType.SERVER_NAME, TLSServerNameIndicationExtension.generateObjectBytes [host])]

variable {host : List UByte}

/-- The sizes of the extensions' data. -/
theorem helloExtensionParts_length (rnd : HelloRandom) (host : List UByte) :
    (helloExtensionParts rnd host).map (fun part => part.2.length) = [9, 38, host.length + 5] := by
  simp [helloExtensionParts, TLSSupportedVersionsClientHelloExtension.generateObjectBytes,
    TLSKeyShareClientHello.generateObjectBytes, TLSKeyShareEntry.generateObjectBytes,
    TLSServerNameIndicationExtension.generateObjectBytes,
    TLSServerNameIndicationEntry.generateObjectBytes, rnd.keyExchange_length]
  omega

/-- The bytes of the extensions. -/
def helloExtensionBytes (rnd : HelloRandom) (host : List UByte) : List UByte :=
  (helloExtensionParts rnd host).flatMap fun part => TLSExtension.generateObjectBytes part.1 part.2

theorem helloExtensionBytes_length (rnd : HelloRandom) (host : List UByte) :
    (helloExtensionBytes rnd host).length = host.length + 64 := by
  have hlengths := helloExtensionParts_length rnd host
  rw [helloExtensionParts, List.map_cons, List.map_cons, List.map_singleton, List.cons.injEq,
    List.cons.injEq, List.cons.injEq] at hlengths
  obtain ⟨hversions, hkeys, hnames, -⟩ := hlengths
  simp only [helloExtensionBytes, helloExtensionParts, List.flatMap_cons, List.flatMap_nil,
    TLSExtension.generateObjectBytes, List.length_append, bytes16_length, List.length_nil,
    hversions, hkeys, hnames]
  omega

theorem helloExtensions_eq (rnd : HelloRandom) (host : List UByte) : helloExtensions rnd host =
    bytes16 (UInt16.ofNat (helloExtensionBytes rnd host).length) ++
      helloExtensionBytes rnd host := rfl

/-- The format shows the extensions one after the other. -/
theorem sequence_extensions (rnd : HelloRandom) (hsize : host.length ≤ 16209) :
    sequence TlsFormat.extension (helloExtensionBytes rnd host) =
      some ((helloExtensionParts rnd host).map fun part => ⟨part.1.toNat, part.2⟩) := by
  apply sequence_flatMap
  · intro part hpart
    have hlength : part.2.length ≤ 65535 := by
      have hmem := List.mem_map_of_mem (f := fun part => part.2.length) hpart
      rw [helloExtensionParts_length] at hmem
      simp at hmem
      omega
    rw [TLSExtension.generateObjectBytes, List.append_assoc, ← value_bytes16 part.1]
    exact TlsFormat.takes_extension rfl rfl (value_length16 hlength)
  · intro part hpart
    exact List.cons_ne_nil _ _

/-- What the format shows of a client's hello. -/
def seenHello (rnd : HelloRandom) (host id : List UByte) (ciphers : List ℕ) :
    TlsFormat.ClientHello where
  version := 0x0303
  random := rnd.random
  session := id
  ciphers := ciphers
  compressions := rnd.compressions
  extensions := (helloExtensionParts rnd host).map fun part => ⟨part.1.toNat, part.2⟩

theorem takes_clientHello (rnd : HelloRandom) (hsize : host.length ≤ 16209) {id : List UByte}
    (hid : id.length ≤ 32) : ∃ ciphers, Takes TlsFormat.clientHello
      (TLS13ClientHello.generateObjectBytes rnd host id) (seenHello rnd host id ciphers) := by
  obtain ⟨ciphers, hciphers, hcount⟩ :=
    exists_sequence_number (n := 17) Nat.two_pos rnd.ciphers_length
  have hextensions := helloExtensionBytes_length rnd host
  have hbytes : TLS13ClientHello.generateObjectBytes rnd host id = bytes16 0x0303 ++ (rnd.random ++
      (([UInt8.ofNat id.length] ++ id) ++ ((bytes16 34 ++ rnd.ciphers) ++
        (([1] ++ rnd.compressions) ++
          (bytes16 (UInt16.ofNat (helloExtensionBytes rnd host).length) ++
            helloExtensionBytes rnd host))))) := by
    rw [TLS13ClientHello.generateObjectBytes, helloExtensions_eq]
    simp only [List.append_assoc]
    rfl
  have hsomeCipher : ciphers ≠ [] := by
    apply List.ne_nil_of_length_pos
    rw [hcount]
    decide
  have hsomeCompression : rnd.compressions ≠ [] := by
    apply List.ne_nil_of_length_pos
    rw [rnd.compressions_length]
    decide
  have hnodup :
      ((seenHello rnd host id ciphers).extensions.map TlsFormat.Extension.type).Nodup := by
    have htypes : (seenHello rnd host id ciphers).extensions.map TlsFormat.Extension.type =
      [43, 40, 0] := rfl
    rw [htypes]
    decide
  refine ⟨ciphers, ?_⟩
  rw [hbytes]
  exact TlsFormat.takes_clientHello rfl rnd.random_length rfl (value_length8 (by omega)) hid rfl
    (by rw [rnd.ciphers_length]; rfl) hciphers hsomeCipher rfl
    (by rw [rnd.compressions_length]; rfl) hsomeCompression rfl
    (value_length16 (by omega)) (sequence_extensions rnd hsize) hnodup

/-- It shows the name of the host. -/
theorem seenHello_serverNames (rnd : HelloRandom) (hhost : host ≠ []) (hsize : host.length ≤ 16209)
    (id : List UByte) (ciphers : List ℕ) :
    (seenHello rnd host id ciphers).serverNames = some [host] := by
  have hentry : Takes TlsFormat.serverName (TLSServerNameIndicationEntry.generateObjectBytes host)
      host := TlsFormat.takes_serverName rfl (value_length16 (by omega)) hhost
  have hentries : sequence TlsFormat.serverName
      ([host].flatMap TLSServerNameIndicationEntry.generateObjectBytes) =
        some ([host].map fun host => host) := by
    apply sequence_flatMap
    · intro part hpart
      rw [List.mem_singleton.mp hpart]
      exact hentry
    · intro part hpart
      exact List.cons_ne_nil _ _
  have hlist : Takes (within 2 (sequence TlsFormat.serverName))
      (TLSServerNameIndicationExtension.generateObjectBytes [host]) [host] := by
    apply takes_within rfl (value_length16 _) hentries
    simp [TLSServerNameIndicationEntry.generateObjectBytes]
    omega
  exact hlist.whole

/-- It shows the versions. -/
theorem seenHello_versions (rnd : HelloRandom) (host id : List UByte) (ciphers : List ℕ) :
    (seenHello rnd host id ciphers).versions = some [0x0304, 0x0303, 0x0302, 0x0301] := by
  rfl

theorem clientHello_length (rnd : HelloRandom) (host id : List UByte) :
    (TLS13ClientHello.generateObjectBytes rnd host id).length = 139 + id.length + host.length := by
  rw [TLS13ClientHello.generateObjectBytes, helloExtensions_eq]
  simp only [TLSSessionID.generateObjectBytes, TLSCipherSuit.generateObjectBytes,
    TLSCompression.generateObjectBytes, List.length_append, List.length_cons, bytes16_length,
    rnd.random_length, rnd.ciphers_length, rnd.compressions_length, helloExtensionBytes_length]
  omega

/-- What the format shows of the message that a client sends first. -/
theorem takes_helloMessage (rnd : HelloRandom) {cred : Credentials} (hsize : host.length ≤ 16209)
    (hcred : cred.cryptoData.length ≤ 32) : ∃ ciphers, Takes TlsFormat.handshake
      (helloMessage rnd host cred) (seenHello rnd host cred.cryptoData ciphers) := by
  obtain ⟨ciphers, hhello⟩ := takes_clientHello rnd hsize hcred
  have hlength := clientHello_length rnd host cred.cryptoData
  exact ⟨ciphers, TlsFormat.takes_handshake rfl (value_bytes24 (by omega)) hhello⟩

end QVPN
