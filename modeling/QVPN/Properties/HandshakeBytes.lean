import QVPN.Driver.Handshake
import QVPN.Properties.Authorization
import QVPN.Properties.ServerHello

/-!
# The bytes of a handshake

Both sides look at arrays that a receive has filled in part. The client decides by two bytes of the
answer. The server reads the credentials of a hello right if its receive reaches to their end; what is
behind them may still be on its way.
-/

namespace QVPN

open BigEndian Memory

/-- A receive fills the front of an array of 65536 bytes. -/
theorem receiveBuffer_length_ge (data : List UByte) : 65536 ≤ (receiveBuffer data).length := by
  rw [receiveBuffer, List.length_append, List.length_replicate]
  omega

/-- Of nothing only zeros are seen. -/
theorem getD_receiveBuffer_nil (i : ℕ) : (receiveBuffer []).getD i 0 = 0 := by
  rw [receiveBuffer, List.nil_append, List.length_nil]
  generalize 65536 - 0 = zeros
  simp

section Client

open QVPNClientDriver

/-- The fields of a server hello at byte 9 lie in the array, whatever their lengths are. -/
theorem exists_serverHelloView {mem : List UByte} (hmem : 65536 ≤ mem.length) (e : ℕ) :
    ∃ view, TLS13ServerHelloPacketView.ofRange mem 9 e = .ok view := by
  obtain ⟨session, hsession⟩ := readAt_of_lt (show 43 < mem.length by omega)
  have hbyte := session.toNat_lt
  have hid : TLSSessionIDView.getTlsIdFullLength mem (9 + 34) = .ok (session.toUInt32 + 1) := by
    rw [TLSSessionIDView.getTlsIdFullLength, hsession]
    rfl
  have hlength := byte_toUInt32_succ session
  obtain ⟨extensions, hextensions⟩ := read16_of_lt
    (show 9 + (34 + (session.toUInt32 + 1).toNat + 2 + 1) + 1 < mem.length by omega)
  have hscheme : ∃ scheme, unifiedServerParseScheme mem 9 = .ok scheme := by
    have hrandom : 2 + TLSRandomView.getTlsRandomFullLength.toNat = 34 := rfl
    rw [unifiedServerParseScheme, hrandom]
    dsimp only
    rw [hid, ok_bind, TLSExtensionsView.getTlsExtensionsFullLength, hextensions]
    exact ⟨_, rfl⟩
  obtain ⟨scheme, hscheme⟩ := hscheme
  rw [TLS13ServerHelloPacketView.ofRange, hscheme]
  exact ⟨_, rfl⟩

/-- Two bytes decide about an answer, and checking it never leaves the array. -/
theorem checkAnswer_receiveBuffer (data : List UByte) :
    checkAnswer (receiveBuffer data) =
      .ok ((receiveBuffer data).getD 0 0 = 22 && (receiveBuffer data).getD 5 0 = 2) := by
  have hmem := receiveBuffer_length_ge data
  generalize receiveBuffer data = mem at hmem ⊢
  have hread (i : ℕ) (hi : i < 65536) : readAt mem i = .ok (mem.getD i 0) := readAt_getD (by omega) 0
  rw [checkAnswer, hread 0 (by decide), ok_bind]
  by_cases hrecord : mem.getD 0 0 = 22
  · have hmessage : TLS13MessageView.ofRange mem 5 = .ok ⟨mem, 5,
        join32 0 (mem.getD 6 0) (mem.getD 7 0) (mem.getD 8 0) + 4⟩ := by
      rw [TLS13MessageView.ofRange, TLS13MessageView.getTlsMsgFullLength,
        TLS13MessageView.getTlsMsgLength, hread _ (by decide), hread _ (by decide),
        hread _ (by decide)]
      rfl
    rw [if_neg (by simpa using hrecord), hmessage, ok_bind, TLS13MessageView.getMsgType]
    dsimp only
    rw [hread 5 (by decide), ok_bind, hrecord]
    by_cases htype : mem.getD 5 0 = 2
    · obtain ⟨view, hview⟩ := exists_serverHelloView hmem
        (5 + (join32 0 (mem.getD 6 0) (mem.getD 7 0) (mem.getD 8 0) + 4).toNat)
      rw [if_neg (by simpa using htype), hview, htype]
      rfl
    · rw [if_pos htype, decide_eq_false htype, Bool.and_false]
      rfl
  · rw [if_pos hrecord, decide_eq_false hrecord, Bool.false_and]
    rfl

/-- What `init` returns, whatever was received. -/
theorem init_eq (net : InitOutcome) : init net = .ok (net.received.status.success &&
    (receiveBuffer net.received.data).getD 0 0 = 22 &&
    (receiveBuffer net.received.data).getD 5 0 = 2 && net.sent) := by
  rw [init, checkAnswer_receiveBuffer, ok_bind]
  cases net.received.status.success with
  | false => simp
  | true =>
    rw [if_neg Bool.true_eq_false_eq_False, Bool.true_and]
    cases (decide ((receiveBuffer net.received.data).getD 0 0 = 22) &&
      decide ((receiveBuffer net.received.data).getD 5 0 = 2)) with
    | false => rfl
    | true => cases net.sent <;> rfl

end Client

section Server

open QVPNServerDriver

/-- What arrives in part is read on in zeros. -/
theorem getD_cut (xs : List UByte) (k m i : ℕ) :
    (xs.take k ++ List.replicate m 0).getD i 0 = xs.getD i 0 ∨
      (xs.take k ++ List.replicate m 0).getD i 0 = 0 := by
  by_cases hi : i < (xs.take k).length
  · refine Or.inl ?_
    rw [List.getD_append _ _ _ _ hi]
    exact getD_take (by rw [List.length_take] at hi; omega) xs 0
  · refine Or.inr ?_
    rw [List.getD_append_right _ _ _ _ (by omega)]
    simp

/-- What a server receives of a hello, when it reaches to the end of the session id: behind it are
either the two bytes that count the ciphers, or the zeros of the array. -/
theorem exists_receivedHello (rnd : HelloRandom) (host : List UByte) (cred : Credentials) {n : ℕ}
    (hn : 44 + cred.cryptoData.length ≤ n) :
    ∃ front rest, receiveBuffer ((QVPNClientDriver.initHello rnd host cred).take n) =
        front ++ cred.cryptoData ++ rest ∧ front.length = 44 ∧ front.getD 0 0 = 22 ∧
      front.getD 5 0 = 1 ∧ front.getD 43 0 = UInt8.ofNat cred.cryptoData.length ∧
      rest.getD 0 0 = 0 ∧ (rest.getD 1 0 = 0 ∨ rest.getD 1 0 = 34) := by
  generalize hlength : UInt16.ofNat (QVPNClientDriver.helloMessage rnd host cred).length = length
  generalize hsize : UInt32.ofNat (TLS13ClientHello.generateObjectBytes rnd host
    cred.cryptoData).length = size
  let front := [22, 3, 3] ++ bytes16 length ++ 1 :: bytes24 size ++ bytes16 0x0303 ++ rnd.random ++
    [UInt8.ofNat cred.cryptoData.length]
  obtain ⟨tail, hhello⟩ : ∃ tail, QVPNClientDriver.initHello rnd host cred =
      front ++ cred.cryptoData ++ 0 :: 34 :: tail := by
    refine ⟨rnd.ciphers ++ TLSCompression.generateObjectBytes 1 rnd.compressions ++
      helloExtensions rnd host, ?_⟩
    rw [QVPNClientDriver.initHello, TLS13Record.generateHandshakeBytes, hlength,
      QVPNClientDriver.helloMessage, TLS13Message.generateObjectBytes, hsize,
      TLS13ClientHello.generateObjectBytes, TLSSessionID.generateObjectBytes,
      TLSCipherSuit.generateObjectBytes]
    simp only [front, List.append_assoc, List.cons_append, List.nil_append]
    rfl
  have hfront : front.length = 44 := by
    simp [front, rnd.random_length, bytes24]
  obtain ⟨k, hk⟩ : ∃ k, n - (front ++ cred.cryptoData).length = k := ⟨_, rfl⟩
  have hreceived : (QVPNClientDriver.initHello rnd host cred).take n =
      front ++ cred.cryptoData ++ (0 :: 34 :: tail).take k := by
    rw [hhello, List.take_append, hk, List.take_of_length_le]
    rw [List.length_append, hfront]
    exact hn
  refine ⟨front, (0 :: 34 :: tail).take k ++ List.replicate (65536 -
    ((QVPNClientDriver.initHello rnd host cred).take n).length) 0, ?_, hfront, rfl, rfl, ?_, ?_⟩
  · rw [receiveBuffer, ← List.append_assoc, ← hreceived]
  · rw [List.getD_append_right _ _ _ _ (by simp [rnd.random_length, bytes24])]
    simp [rnd.random_length, bytes24]
  · refine ⟨?_, ?_⟩
    · obtain h | h := getD_cut (0 :: 34 :: tail) k _ 0
      · exact h
      · exact h
    · exact (getD_cut (0 :: 34 :: tail) k _ 1).symm

/-- The server finds the credentials of a hello as soon as all their bytes are there. -/
theorem checkHello_receivedHello (rnd : HelloRandom) (host : List UByte) {cred : Credentials}
    (hcred : cred.key.length + cred.user.length + 4 ≤ 255) {n : ℕ}
    (hn : 44 + cred.cryptoData.length ≤ n) :
    checkHello (receiveBuffer ((QVPNClientDriver.initHello rnd host cred).take n)) =
      .ok (some cred) := by
  obtain ⟨front, rest, hlayout, hfront, hrecord, htype, hsession, hfirst, hsecond⟩ :=
    exists_receivedHello rnd host cred hn
  have hmem := receiveBuffer_length_ge ((QVPNClientDriver.initHello rnd host cred).take n)
  generalize receiveBuffer ((QVPNClientDriver.initHello rnd host cred).take n) = mem at hlayout hmem ⊢
  have hid : cred.cryptoData.length ≤ 255 := by rwa [cryptoData_length]
  have hread (i : ℕ) (hi : i < 44) : readAt mem i = .ok (front.getD i 0) := by
    rw [readAt_getD (by omega) 0, hlayout, List.append_assoc, List.getD_append _ _ _ _ (by omega)]
  have hbehind (i : ℕ) : mem.getD (44 + cred.cryptoData.length + i) 0 = rest.getD i 0 := by
    rw [hlayout, List.getD_append_right _ _ _ _ (by simp [hfront])]
    congr 1
    simp [hfront]
  have hlength : (mem.getD 43 0).toNat = cred.cryptoData.length := by
    rw [getD_of_readAt (hread 43 (by decide)) 0, hsession, UInt8.toNat_ofNat']
    omega
  have hciphers : (join (mem.getD (44 + cred.cryptoData.length) 0)
      (mem.getD (44 + cred.cryptoData.length + 1) 0) + 2).toNat ≤ 36 := by
    have hzero := hbehind 0
    rw [Nat.add_zero] at hzero
    rw [hzero, hfirst, hbehind 1]
    obtain h | h := hsecond
    · rw [h]
      decide
    · rw [h]
      decide
  have hparse : Legal (unifiedParseClientScheme mem 9) := by
    rw [legal_unifiedParseClientScheme]
    dsimp only
    rw [hlength]
    generalize (join (mem.getD (44 + cred.cryptoData.length) 0)
      (mem.getD (44 + cred.cryptoData.length + 1) 0) + 2).toNat = ciphers at hciphers ⊢
    have hcompressions := (mem.getD (44 + cred.cryptoData.length + ciphers) 0).toNat_lt
    exact ⟨by omega, by omega⟩
  obtain ⟨scheme, hscheme⟩ := hparse
  have hstart : 5 + 4 + scheme.session.1 = 43 := by rw [unifiedParseClientScheme_session hscheme]
  have hcredentials : readCredentials mem 44 = .ok cred :=
    readCredentials_cryptoData front rest hcred hlayout hfront.symm
  have hmessage : TLS13MessageView.getTlsMsgFullLength mem 5 =
      .ok (join32 0 (front.getD 6 0) (front.getD 7 0) (front.getD 8 0) + 4) := by
    rw [TLS13MessageView.getTlsMsgFullLength, TLS13MessageView.getTlsMsgLength,
      hread _ (by decide), hread _ (by decide), hread _ (by decide)]
    rfl
  have hview : TLSSessionIDView.getTlsIdFullLength mem 43 = .ok ((front.getD 43 0).toUInt32 + 1) := by
    rw [TLSSessionIDView.getTlsIdFullLength, hread 43 (by decide)]
    rfl
  rw [checkHello, hread 0 (by decide), hrecord, ok_bind, if_neg (by decide)]
  dsimp only
  rw [hmessage, ok_bind, hread 5 (by decide), htype, ok_bind, if_neg (by decide)]
  have hfields : unifiedParseClientScheme mem (5 + 4) = .ok scheme := hscheme
  rw [hfields, ok_bind, hstart, hview, ok_bind, hcredentials]
  rfl

/-- The answer of a server is a handshake record that holds a server hello. -/
theorem exists_answerRecord (draws : HelloDraws) : ∃ record, answerRecord draws = .ok record ∧
    record.getD 0 0 = 22 ∧ record.getD 5 0 = 2 ∧ 6 ≤ record.length := by
  have hsession : TLS13DefaultServerHelloGenerationStrategy.getSessionLength.toNat ≠ 255 := by decide
  obtain ⟨parts, hparts, -⟩ := exists_serverHelloParts draws hsession
  refine ⟨_, by rw [answerRecord, hparts]; rfl, rfl, rfl, ?_⟩
  simp [TLS13Record.generateHandshakeBytes, TLS13Message.generateObjectBytes, bytes24]
  omega

/-- A connection without any bytes is closed. -/
theorem checkHello_receiveBuffer_nil : checkHello (receiveBuffer []) = .ok none := by
  have hfirst : readAt (receiveBuffer []) 0 = .ok 0 := by
    rw [readAt_getD (Nat.lt_of_lt_of_le (by decide) (receiveBuffer_length_ge [])) 0,
      getD_receiveBuffer_nil]
  rw [checkHello, hfirst, ok_bind, if_pos (by decide)]
  rfl

/-- A round closes the connection without an answer, or it answers a registered user; the tunnel
starts if the answer was sent. -/
theorem listenAndConnectSocket_cases {checkUser : List UByte → Bool} {draws : HelloDraws}
    {net : AcceptOutcome} {accepted : Accepted}
    (h : listenAndConnectSocket checkUser draws net = .ok accepted) :
    accepted = ⟨[], none⟩ ∨ ∃ cred record, checkHello (receiveBuffer net.received.data) =
        .ok (some cred) ∧ checkUser cred.user = true ∧ answerRecord draws = .ok record ∧
      accepted = ⟨[record], if net.sent then some cred else none⟩ := by
  rw [listenAndConnectSocket] at h
  split at h
  · exact Or.inl (Except.ok.inj h).symm
  · obtain ⟨cred, hcred, h⟩ := bind_eq_ok_iff.mp h
    cases cred with
    | none => exact Or.inl (Except.ok.inj h).symm
    | some cred =>
      dsimp only at h
      split at h
      · exact Or.inl (Except.ok.inj h).symm
      · next huser =>
        obtain ⟨record, hrecord, h⟩ := bind_eq_ok_iff.mp h
        refine Or.inr ⟨cred, record, hcred, by simpa using huser, hrecord, ?_⟩
        split at h
        · next hsent => rw [← Except.ok.inj h, if_pos hsent]
        · next hsent => rw [← Except.ok.inj h, if_neg hsent]

end Server

section Undisturbed

open QVPNServerDriver

variable (checkUser : List UByte → Bool) (rnd : HelloRandom) (host : List UByte) {cred : Credentials}

/-- What the server makes of a hello that it reads to the end of the credentials, and of a connection
whose hello was not sent. -/
theorem listenAndConnectSocket_hello (hfits : cred.key.length + cred.user.length + 4 ≤ 255) {n : ℕ}
    (hn : 44 + cred.cryptoData.length ≤ n) (sent received answered : Bool) {draws : HelloDraws}
    {record : List UByte} (hrecord : answerRecord draws = .ok record) :
    listenAndConnectSocket checkUser draws ⟨⟨⟨received, 0⟩,
        (if sent then QVPNClientDriver.initHello rnd host cred else []).take n⟩, answered⟩ =
      .ok (if sent && received && checkUser cred.user then
        ⟨[record], if answered then some cred else none⟩ else ⟨[], none⟩) := by
  cases received with
  | false =>
    rw [Bool.and_false, Bool.false_and]
    rfl
  | true =>
    rw [listenAndConnectSocket, if_neg Bool.true_eq_false_eq_False, Bool.and_true]
    cases sent with
    | false =>
      rw [if_neg Bool.false_ne_true, List.take_nil, checkHello_receiveBuffer_nil]
      rfl
    | true =>
      rw [if_pos rfl, checkHello_receivedHello rnd host hfits hn, Bool.true_and, ok_bind]
      dsimp only
      cases checkUser cred.user with
      | false => rfl
      | true =>
        rw [if_neg Bool.true_eq_false_eq_False, hrecord]
        cases answered with
        | false => rfl
        | true => rfl

/-- A client looks at the first bytes of an answer: six are enough, and fewer are not. -/
theorem init_answer {draws : HelloDraws} {record : List UByte}
    (hrecord : answerRecord draws = .ok record) (sent received : Bool) (m : ℕ) :
    QVPNClientDriver.init ⟨sent, ⟨⟨received, 0⟩, record.take m⟩⟩ =
      .ok (sent && received && decide (6 ≤ m)) := by
  obtain ⟨_, hsame, hfirst, htype, hlength⟩ := exists_answerRecord draws
  cases hrecord.symm.trans hsame
  rw [init_eq]
  by_cases hm : 6 ≤ m
  · have hread (i : ℕ) (hi : i < 6) : (receiveBuffer (record.take m)).getD i 0 = record.getD i 0 := by
      rw [receiveBuffer, List.getD_append _ _ _ _ (by rw [List.length_take]; omega)]
      exact getD_take (by omega) record 0
    rw [hread 0 (by decide), hread 5 (by decide), hfirst, htype, decide_eq_true hm]
    cases sent <;> cases received <;> rfl
  · have htype' : (receiveBuffer (record.take m)).getD 5 0 = 0 := by
      rw [receiveBuffer, List.getD_append_right _ _ _ _ (by rw [List.length_take]; omega)]
      generalize 65536 - (record.take m).length = zeros
      simp
    rw [htype', decide_eq_false hm]
    cases sent <;> cases received <;> simp

/-- A client whom nobody answers is not authorized. -/
theorem init_nil (sent received : Bool) (m : ℕ) :
    QVPNClientDriver.init ⟨sent, ⟨⟨received, 0⟩, ([] : List UByte).take m⟩⟩ = .ok false := by
  rw [init_eq, List.take_nil, getD_receiveBuffer_nil]
  cases sent <;> cases received <;> rfl

end Undisturbed

end QVPN
