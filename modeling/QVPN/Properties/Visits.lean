import QVPN.Driver.Whitelist
import QVPN.Properties.ClientRuns
import QVPN.Properties.SeenHello

/-!
# What a client looks like

Between the client and the server someone may look at the bytes, and let pass what looks like a
visit to a host of a whitelist. The format of TLS, which is described apart from this program, shows
what there is to see: on each connection the client's hello with the name of a host of the
whitelist, and records of application data behind it.

The disguise goes as far as the format. The session id holds the user and the key, and the payloads
stand in the records as they were captured.
-/

namespace QVPN

open BigEndian Memory Prefixed QVPNLayersSettings QVPNPacketManager QVPNClientDriver

section Whitelist

/-- A word of the whitelist: not empty, without white space, and found in the text. -/
structure IsWord (text word : List UByte) : Prop where
  ne_nil : word ≠ []
  no_space : ∀ b ∈ word, isSpace b = false
  infix_text : word <:+: text

/-- The next word is a word, of what stands before the rest. -/
theorem extractWord_isWord {text word rest : List UByte}
    (h : extractWord text = some (word, rest)) : IsWord text word ∧ rest <:+ text := by
  have hblank := List.dropWhile_suffix (l := text) isSpace
  rw [extractWord] at h
  by_cases hword : (text.dropWhile isSpace).takeWhile (fun b => !isSpace b) = []
  · rw [if_pos hword] at h
    cases h
  · rw [if_neg hword] at h
    cases h
    refine ⟨⟨hword, ?_, ?_⟩, (List.dropWhile_suffix _).trans hblank⟩
    · intro b hb
      simpa using List.mem_takeWhile_imp hb
    · exact (List.takeWhile_prefix _).isInfix.trans hblank.isInfix

/-- Every host of a whitelist is a word of its text. -/
theorem parseElements_isWord (text : List UByte) :
    ∀ element ∈ QVPNWhitelist.parseElements text, IsWord text element.host := by
  induction text using QVPNWhitelist.parseElements.induct with
  | case1 text hword =>
    intro element helement
    rw [QVPNWhitelist.parseElements, hword] at helement
    cases helement
  | case2 text host rest hword hnumber =>
    intro element helement
    rw [QVPNWhitelist.parseElements, hword] at helement
    dsimp only at helement
    rw [hnumber] at helement
    cases helement
  | case3 text host rest hword priority later hnumber ih =>
    obtain ⟨hhost, hrest⟩ := extractWord_isWord hword
    intro element helement
    rw [QVPNWhitelist.parseElements, hword] at helement
    dsimp only at helement
    rw [hnumber] at helement
    obtain rfl | helement := List.mem_cons.mp helement
    · exact hhost
    · obtain ⟨hne, hspace, hinfix⟩ := ih element helement
      exact ⟨hne, hspace, hinfix.trans ((extractInt_suffix hnumber).trans hrest).isInfix⟩

/-- The host of an announcement is a word of the first file. -/
theorem HelloOutcome.Drawn.isWord {files : List (Option (List UByte))} {hello : HelloOutcome}
    (h : hello.Drawn files) : ∃ text, files.head? = some (some text) ∧ IsWord text hello.host := by
  obtain ⟨drawn, h⟩ := h
  rw [getWhitelistElement] at h
  obtain ⟨w, hw, h⟩ := bind_eq_ok_iff.mp h
  rw [QVPNWhitelist.getRandomHost] at h
  obtain ⟨element, helement, hhost⟩ := bind_eq_ok_iff.mp h
  cases files with
  | nil => cases hw
  | cons file files =>
    cases Except.ok.inj hw
    cases file with
    | none => cases helement
    | some text =>
      refine ⟨text, rfl, ?_⟩
      rw [← Except.ok.inj hhost]
      exact parseElements_isWord text element (List.mem_of_getElem? (readAt_eq_ok_iff.mp helement))

end Whitelist

section Calls

variable {Hello Data : List UByte → Prop} {Lost : Prop} {fresh : Bool}
  {calls later : List SocketCall}

/-- The order of a client's calls: what is sent first over a connection that was opened is a hello,
unless it is lost, and everything behind it is data. The flag says whether the hello comes next. -/
inductive Speaks (Hello Data : List UByte → Prop) (Lost : Prop) : Bool → List SocketCall → Prop
  | done : Speaks Hello Data Lost false []
  | connect {success : Bool} {calls : List SocketCall}
    (h : Speaks Hello Data Lost success calls) :
    Speaks Hello Data Lost false (.connect success :: calls)
  | reconnect {success : Bool} {calls : List SocketCall}
    (h : Speaks Hello Data Lost success calls) :
    Speaks Hello Data Lost false (.reconnect success :: calls)
  | hello {bytes : List UByte} {calls : List SocketCall} (hhello : Hello bytes)
    (h : Speaks Hello Data Lost false calls) :
    Speaks Hello Data Lost true (.send bytes true :: calls)
  | lost (bytes : List UByte) {calls : List SocketCall} (hlost : Lost)
    (h : Speaks Hello Data Lost false calls) :
    Speaks Hello Data Lost true (.send bytes false :: calls)
  | data {bytes : List UByte} {calls : List SocketCall} (hdata : Data bytes)
    (h : Speaks Hello Data Lost false calls) :
    Speaks Hello Data Lost false (.send bytes true :: calls)
  | failed (bytes : List UByte) {calls : List SocketCall} (h : Speaks Hello Data Lost false calls) :
    Speaks Hello Data Lost false (.send bytes false :: calls)
  | receive (success : Bool) {calls : List SocketCall} (h : Speaks Hello Data Lost false calls) :
    Speaks Hello Data Lost false (.receive success :: calls)

/-- Calls that leave no hello to be sent go together. -/
theorem Speaks.append (h : Speaks Hello Data Lost fresh calls)
    (hlater : Speaks Hello Data Lost false later) :
    Speaks Hello Data Lost fresh (calls ++ later) := by
  induction h with
  | done => exact hlater
  | connect h ih => exact .connect ih
  | reconnect h ih => exact .reconnect ih
  | hello hhello h ih => exact .hello hhello ih
  | lost bytes hlost h ih => exact .lost bytes hlost ih
  | data hdata h ih => exact .data hdata ih
  | failed bytes h ih => exact .failed bytes ih
  | receive success h ih => exact .receive success ih

/-- Tries to reconnect end with a connection that is open if one of them succeeded. -/
theorem speaks_tries (reconnected : ℕ → Bool) (n : ℕ)
    (h : Speaks Hello Data Lost (tryReconnect reconnected n).1 later) :
    Speaks Hello Data Lost false ((tryReconnect reconnected n).2 ++ later) := by
  induction n with
  | zero => exact h
  | succ n ih =>
    rw [tryReconnect] at h ⊢
    cases hsuccess : reconnected (n + 1) with
    | true =>
      rw [hsuccess] at h
      exact .reconnect h
    | false =>
      rw [hsuccess] at h
      exact .reconnect (ih h)

variable {cred : Credentials} {hello : HelloOutcome}

/-- An announcement is a hello, or it is lost. -/
theorem speaks_initCalls (hhello : Hello (initHello hello.rnd hello.host cred))
    (hlost : hello.net.sent = false → Lost) :
    Speaks Hello Data Lost true (initCalls cred hello) := by
  rw [initCalls]
  cases hsent : hello.net.sent with
  | true => exact .hello hhello (.receive _ .done)
  | false => exact .lost _ (hlost hsent) (.receive _ .done)

/-- A client that lost its connection, or is at its start, announces itself if it gets a new one. -/
theorem speaks_reconnect (net : SendOutcome)
    (hhello : Hello (initHello net.hello.rnd net.hello.host cred))
    (hlost : net.hello.net.sent = false → Lost) :
    Speaks Hello Data Lost false ((tryReconnect net.reconnected 20).2 ++
      if (tryReconnect net.reconnected 20).1 then initCalls cred net.hello else []) := by
  apply speaks_tries
  cases (tryReconnect net.reconnected 20).1 with
  | true => exact speaks_initCalls hhello hlost
  | false => exact .done

/-- The calls about a packet of one record. -/
theorem encodeAndSend_whole (cred : Credentials) {m : QVPNPacketManager} (hm : m.DefaultConfig)
    {packet : QTunnelData} (hpacket : packet.Sendable) (hshort : packet.data.length ≤ 16384)
    (net : SendOutcome) :
    QVPNClientDriver.encodeAndSend cred defaultLayers m net packet.toQTunnelProxy packet.data =
      .ok (if net.sent 0 then
          [.send (wholeRecord m.lastPacketId packet.toQTunnelProxy packet.data) true]
        else .send (wholeRecord m.lastPacketId packet.toQTunnelProxy packet.data) false ::
          ((tryReconnect net.reconnected 20).2 ++
            if (tryReconnect net.reconnected 20).1 then initCalls cred net.hello else []),
        m.nextPacketId) := by
  have hrecords : packetRecords m.lastPacketId packet.toQTunnelProxy packet.data =
      [wholeRecord m.lastPacketId packet.toQTunnelProxy packet.data] := by
    rw [packetRecords, if_pos (by omega)]
  apply encodeAndSend_eq hm hpacket hrecords
  cases hsent : net.sent 0 with
  | true => exact recordCalls_sent hsent rfl
  | false => exact recordCalls_failed hsent _ []

/-- The capture loop sends data, and announces the client on every connection that it opens. -/
theorem speaks_outgoingCaptureLoop {m : QVPNPacketManager} (hm : m.DefaultConfig)
    {captures : List (Option Captured × SendOutcome)} {items : List (QTunnelData × SendOutcome)}
    (hreads : Reads captures items) (hsend : ∀ item ∈ items, item.1.Sendable)
    (hshort : ∀ item ∈ items, item.1.data.length ≤ 16384)
    (hdata : ∀ item ∈ items, ∀ id, Data (wholeRecord id item.1.toQTunnelProxy item.1.data))
    (hhellos : ∀ item ∈ items, Hello (initHello item.2.hello.rnd item.2.hello.host cred) ∧
      (item.2.hello.net.sent = false → Lost)) :
    ∃ calls m', outgoingCaptureLoop cred defaultLayers m captures = .ok (calls, m') ∧
      Speaks Hello Data Lost false calls := by
  induction hreads generalizing m with
  | nil => exact ⟨[], m, rfl, .done⟩
  | skip net h ih => exact ih hm hsend hshort hdata hhellos
  | read net hread h ih =>
    next packet =>
    obtain ⟨hsendable, hsend⟩ := List.forall_mem_cons.mp hsend
    obtain ⟨hwhole, hshort⟩ := List.forall_mem_cons.mp hshort
    obtain ⟨hrecord, hdata⟩ := List.forall_mem_cons.mp hdata
    obtain ⟨⟨hhello, hlost⟩, hhellos⟩ := List.forall_mem_cons.mp hhellos
    obtain ⟨later, m', hlater, hspeaks⟩ :=
      ih (m := m.nextPacketId) ⟨hm.max_size, hm.split_size⟩ hsend hshort hdata hhellos
    have hencode := encodeAndSend_whole cred hm hsendable hwhole net
    generalize hcalls : (if net.sent 0 then _ else _) = calls at hencode
    have hpacket : Speaks Hello Data Lost false calls := by
      rw [← hcalls]
      cases net.sent 0 with
      | true => exact .data (hrecord m.lastPacketId) .done
      | false => exact .failed _ (speaks_reconnect net hhello hlost)
    refine ⟨calls ++ later, m', ?_, hpacket.append hspeaks⟩
    rw [outgoingCaptureLoop, hread, ok_bind]
    dsimp only
    rw [hencode, ok_bind]
    dsimp only
    rw [hlater]
    rfl

/-- A client keeps to the order from its start on, whatever its sends and tries come to. -/
theorem speaks_clientRun (connected : Bool) (start : SendOutcome) {m : QVPNPacketManager}
    (hm : m.DefaultConfig) {captures : List (Option Captured × SendOutcome)}
    {items : List (QTunnelData × SendOutcome)} (hreads : Reads captures items)
    (hsend : ∀ item ∈ items, item.1.Sendable) (hshort : ∀ item ∈ items, item.1.data.length ≤ 16384)
    (hdata : ∀ item ∈ items, ∀ id, Data (wholeRecord id item.1.toQTunnelProxy item.1.data))
    (hhellos : ∀ net ∈ start :: items.map Prod.snd,
      Hello (initHello net.hello.rnd net.hello.host cred) ∧ (net.hello.net.sent = false → Lost)) :
    ∃ calls, clientRun cred connected start m captures = .ok calls ∧
      Speaks Hello Data Lost false calls := by
  obtain ⟨⟨hhello, hlost⟩, hitems⟩ := List.forall_mem_cons.mp hhellos
  obtain ⟨later, m', hlater, hspeaks⟩ := speaks_outgoingCaptureLoop hm hreads hsend hshort hdata
    fun item hitem => hitems item.2 (List.mem_map_of_mem hitem)
  cases connected with
  | true =>
    refine ⟨.connect true :: initCalls cred start.hello ++ later, ?_, ?_⟩
    · rw [clientRun, initDriver, if_pos rfl, initIf_eq, ok_bind, if_pos rfl, hlater]
      rfl
    · exact Speaks.append (.connect (speaks_initCalls hhello hlost)) hspeaks
  | false =>
    refine ⟨.connect false :: ((tryReconnect start.reconnected 20).2 ++
      if (tryReconnect start.reconnected 20).1 then initCalls cred start.hello else []) ++ later,
      ?_, ?_⟩
    · rw [clientRun, initDriver, if_neg (by decide)]
      dsimp only
      rw [initIf_eq, ok_bind, hlater]
      rfl
    · exact Speaks.append (.connect (speaks_reconnect start hhello hlost)) hspeaks

/-- What was sent over a connection: a hello and data, or data alone, if the connection is not alive
or a hello was lost. -/
def Ordered (Hello Data : List UByte → Prop) (Lost : Prop) (c : Bool × List (List UByte)) : Prop :=
  (∃ hello records, c.2 = hello :: records ∧ Hello hello ∧ ∀ record ∈ records, Data record) ∨
    (c.1 = false ∨ Lost) ∧ ∀ record ∈ c.2, Data record

/-- A connection that was opened is in order, and one that was not is not alive. -/
theorem ordered_of_opened {success : Bool} {sends : List (List UByte)}
    (hdata : success = false → ∀ record ∈ sends, Data record)
    (hordered : success = true → Ordered Hello Data Lost (success, sends)) :
    Ordered Hello Data Lost (success, sends) := by
  cases success with
  | true => exact hordered rfl
  | false => exact Or.inr ⟨Or.inl rfl, hdata rfl⟩

/-- Calls in order make connections in order; the first of them goes on with data, or begins with
the hello that comes next. -/
theorem Speaks.connections (h : Speaks Hello Data Lost fresh calls) (alive : Bool) :
    ∃ sends rest, connections alive calls = (alive, sends) :: rest ∧
      (fresh = false → ∀ record ∈ sends, Data record) ∧
      (fresh = true → Ordered Hello Data Lost (alive, sends)) ∧
      ∀ c ∈ rest, Ordered Hello Data Lost c := by
  induction h generalizing alive with
  | done => exact ⟨[], [], rfl, by simp, by simp, by simp⟩
  | connect h ih | reconnect h ih =>
    next success calls =>
    obtain ⟨sends, rest, hconnections, hdata, hordered, hrest⟩ := ih success
    exact ⟨[], (success, sends) :: rest, by rw [QVPN.connections, hconnections], by simp, by simp,
      List.forall_mem_cons.mpr ⟨ordered_of_opened hdata hordered, hrest⟩⟩
  | hello hhello h ih =>
    next bytes calls =>
    obtain ⟨sends, rest, hconnections, hdata, -, hrest⟩ := ih alive
    refine ⟨bytes :: sends, rest, by rw [QVPN.connections, if_pos rfl, hconnections]; rfl,
      by simp, ?_, hrest⟩
    intro hfresh
    exact Or.inl ⟨bytes, sends, rfl, hhello, hdata rfl⟩
  | lost bytes hlost h ih =>
    obtain ⟨sends, rest, hconnections, hdata, -, hrest⟩ := ih alive
    refine ⟨sends, rest, by rw [QVPN.connections, if_neg (by decide), hconnections], by simp, ?_,
      hrest⟩
    intro hfresh
    exact Or.inr ⟨Or.inr hlost, hdata rfl⟩
  | data hbytes h ih =>
    next bytes calls =>
    obtain ⟨sends, rest, hconnections, hdata, -, hrest⟩ := ih alive
    refine ⟨bytes :: sends, rest, by rw [QVPN.connections, if_pos rfl, hconnections]; rfl, ?_,
      by simp, hrest⟩
    intro hfresh
    exact List.forall_mem_cons.mpr ⟨hbytes, hdata rfl⟩
  | failed bytes h ih =>
    obtain ⟨sends, rest, hconnections, hdata, -, hrest⟩ := ih alive
    exact ⟨sends, rest, by rw [QVPN.connections, if_neg (by decide), hconnections], hdata, by simp,
      hrest⟩
  | receive success h ih =>
    obtain ⟨sends, rest, hconnections, hdata, -, hrest⟩ := ih alive
    exact ⟨sends, rest, by rw [QVPN.connections, hconnections], hdata, by simp, hrest⟩

end Calls

section Seen

/-- A record is read as its type and its body. -/
theorem takes_recordBytes (type : UByte) {body : List UByte} (hsize : body.length ≤ 16640) :
    Takes TlsFormat.record ([type, 3, 3] ++ bytes16 (UInt16.ofNat body.length) ++ body)
      ⟨type.toNat, body⟩ := by
  have hbytes : [type, 3, 3] ++ bytes16 (UInt16.ofNat body.length) ++ body =
      [type] ++ ([3, 3] ++ (bytes16 (UInt16.ofNat body.length) ++ body)) := rfl
  rw [hbytes]
  exact TlsFormat.takes_record rfl (value_length16 (by omega)) hsize

/-- The record of a hello, of which `host` and the user's data leave room for the rest. -/
theorem takes_initHello (rnd : HelloRandom) {host : List UByte} {cred : Credentials}
    (hsize : host.length ≤ 16209) (hcred : cred.cryptoData.length ≤ 32) :
    (helloMessage rnd host cred).length ≤ 16384 ∧
      Takes TlsFormat.record (initHello rnd host cred) ⟨22, helloMessage rnd host cred⟩ := by
  have hlength : (helloMessage rnd host cred).length =
      143 + cred.cryptoData.length + host.length := by
    rw [helloMessage, TLS13Message.generateObjectBytes, List.length_cons, List.length_append,
      clientHello_length, bytes24]
    simp
    omega
  refine ⟨by omega, ?_⟩
  exact takes_recordBytes 22 (by omega)

variable {bodies : List (List UByte)}

/-- What the format shows of records of application data, one by one. -/
theorem takes_applicationData (hsize : ∀ body ∈ bodies, body.length ≤ 16640) :
    ∀ part ∈ bodies.map fun body =>
        (TLS13Record.generateObjectBytes body, TlsFormat.Record.mk 23 body),
      Takes TlsFormat.record part.1 part.2 ∧ part.1 ≠ [] := by
  intro part hpart
  obtain ⟨body, hbody, rfl⟩ := List.mem_map.mp hpart
  exact ⟨takes_recordBytes 23 (hsize body hbody), List.cons_ne_nil _ _⟩

/-- What the format shows of data without a hello. -/
theorem withoutHello_records (hsize : ∀ body ∈ bodies, body.length ≤ 16640) :
    TlsFormat.withoutHello (bodies.map TLS13Record.generateObjectBytes).flatten = some bodies := by
  have hparts := takes_applicationData hsize
  have hrecords := sequence_flatten (fun part hpart => (hparts part hpart).1)
    (fun part hpart => (hparts part hpart).2)
  rw [List.map_map, List.map_map] at hrecords
  rw [TlsFormat.withoutHello]
  exact (congrArg (Option.bind · TlsFormat.applicationData) hrecords).trans
    (TlsFormat.applicationData_map bodies)

/-- What the format shows of a hello and the data behind it. -/
theorem visit_records (rnd : HelloRandom) {host : List UByte} {cred : Credentials}
    (hhost : host.length ≤ 16209) (hcred : cred.cryptoData.length ≤ 32)
    (hsize : ∀ body ∈ bodies, body.length ≤ 16640) : ∃ ciphers,
    TlsFormat.visit
        (initHello rnd host cred :: bodies.map TLS13Record.generateObjectBytes).flatten =
      some ⟨seenHello rnd host cred.cryptoData ciphers, bodies⟩ := by
  obtain ⟨ciphers, hhello⟩ := takes_helloMessage rnd hhost hcred
  obtain ⟨hmessage, hfirst⟩ := takes_initHello rnd hhost hcred
  have hparts : ∀ part ∈
      (initHello rnd host cred, TlsFormat.Record.mk 22 (helloMessage rnd host cred)) ::
        bodies.map fun body => (TLS13Record.generateObjectBytes body, TlsFormat.Record.mk 23 body),
      Takes TlsFormat.record part.1 part.2 ∧ part.1 ≠ [] := by
    intro part hpart
    obtain rfl | hpart := List.mem_cons.mp hpart
    · exact ⟨hfirst, List.cons_ne_nil _ _⟩
    · exact takes_applicationData hsize part hpart
  have hrecords := sequence_flatten (fun part hpart => (hparts part hpart).1)
    (fun part hpart => (hparts part hpart).2)
  rw [List.map_cons, List.map_cons, List.map_map, List.map_map] at hrecords
  refine ⟨ciphers, ?_⟩
  rw [TlsFormat.visit]
  exact (congrArg (Option.bind · TlsFormat.visitOf) hrecords).trans
    (TlsFormat.visitOf_cons hmessage hhello bodies)

/-- A hello with a host of the whitelist. -/
def IsHello (files : List (Option (List UByte))) (cred : Credentials) (bytes : List UByte) : Prop :=
  ∃ hello : HelloOutcome, hello.Drawn files ∧ hello.host.length ≤ 16209 ∧
    bytes = initHello hello.rnd hello.host cred

variable {items : List (QTunnelData × SendOutcome)}

/-- A payload that was captured stands at the end of the fragment. -/
def EndsInPayload (items : List (QTunnelData × SendOutcome)) (fragment : List UByte) : Prop :=
  ∃ item ∈ items, item.1.data <:+ fragment

/-- A record of application data whose fragment ends with a payload. -/
def IsData (items : List (QTunnelData × SendOutcome)) (record : List UByte) : Prop :=
  ∃ body, record = TLS13Record.generateObjectBytes body ∧ body.length ≤ 16640 ∧
    EndsInPayload items body

theorem isData_wholeRecord {item : QTunnelData × SendOutcome} (hitem : item ∈ items)
    (hsend : item.1.Sendable) (hshort : item.1.data.length ≤ 16384) (id : UByte) :
    IsData items (wholeRecord id item.1.toQTunnelProxy item.1.data) := by
  have hproxy := hsend.valid.encode_nil_length_le
  have hlength := item.1.toQTunnelProxy.encode_length item.1.data
  refine ⟨_, rfl, ?_, item, hitem, ?_⟩
  · rw [List.length_append, PacketBuilderData.bytes_length]
    omega
  · exact (List.suffix_append _ _).trans (List.suffix_append _ _)

/-- Records of application data are generated from their fragments. -/
theorem exists_bodies {records : List (List UByte)} (h : ∀ record ∈ records, IsData items record) :
    ∃ bodies : List (List UByte), records = bodies.map TLS13Record.generateObjectBytes ∧
      (∀ body ∈ bodies, body.length ≤ 16640) ∧ ∀ body ∈ bodies, EndsInPayload items body := by
  induction records with
  | nil => exact ⟨[], rfl, by simp, by simp⟩
  | cons record records ih =>
    obtain ⟨⟨body, rfl, hsize, hshow⟩, hlater⟩ := List.forall_mem_cons.mp h
    obtain ⟨bodies, rfl, hsizes, hshows⟩ := ih hlater
    exact ⟨body :: bodies, rfl, List.forall_mem_cons.mpr ⟨hsize, hsizes⟩,
      List.forall_mem_cons.mpr ⟨hshow, hshows⟩⟩

/-- A visit to a host of the whitelist. Whoever sees it reads the credentials and the payloads too.
-/
structure SeenVisit (files : List (Option (List UByte))) (cred : Credentials)
    (items : List (QTunnelData × SendOutcome)) (visit : TlsFormat.Visit) : Prop where
  host : ∃ text host, files.head? = some (some text) ∧ IsWord text host ∧
    visit.hello.serverNames = some [host]
  versions : visit.hello.versions = some [0x0304, 0x0303, 0x0302, 0x0301]
  session : visit.hello.session = cred.cryptoData
  data : ∀ fragment ∈ visit.data, EndsInPayload items fragment

/-- A connection shows a visit with one fragment for each record behind the hello, or, if it is not
alive or a hello of the run was lost, fragments alone. -/
def LooksLikeVisit (files : List (Option (List UByte))) (cred : Credentials) (Lost : Prop)
    (items : List (QTunnelData × SendOutcome)) (c : Bool × List (List UByte)) : Prop :=
  (∃ visit, TlsFormat.visit c.2.flatten = some visit ∧ visit.data.length + 1 = c.2.length ∧
    SeenVisit files cred items visit) ∨
  (c.1 = false ∨ Lost) ∧ ∃ data, TlsFormat.withoutHello c.2.flatten = some data ∧
    data.length = c.2.length ∧ ∀ fragment ∈ data, EndsInPayload items fragment

/-- What is sent in order looks like a visit. -/
theorem Ordered.looksLikeVisit {files : List (Option (List UByte))} {cred : Credentials}
    (hcred : cred.cryptoData.length ≤ 32) {Lost : Prop} {c : Bool × List (List UByte)}
    (h : Ordered (IsHello files cred) (IsData items) Lost c) :
    LooksLikeVisit files cred Lost items c := by
  obtain ⟨alive, sends⟩ := c
  obtain ⟨bytes, records, (rfl : sends = bytes :: records), hhello, hdata⟩ | ⟨hlost, hdata⟩ := h
  · refine Or.inl ?_
    obtain ⟨hello, hdrawn, hsize, rfl⟩ := hhello
    obtain ⟨bodies, rfl, hsizes, hshows⟩ := exists_bodies hdata
    obtain ⟨text, hfile, hword⟩ := hdrawn.isWord
    obtain ⟨ciphers, hvisit⟩ := visit_records hello.rnd hsize hcred hsizes
    refine ⟨_, hvisit, by rw [List.length_cons, List.length_map], ?_⟩
    have hnames := seenHello_serverNames hello.rnd hword.ne_nil hsize cred.cryptoData ciphers
    exact ⟨⟨text, hello.host, hfile, hword, hnames⟩, seenHello_versions _ _ _ _, rfl, hshows⟩
  · obtain ⟨bodies, (rfl : sends = _), hsizes, hshows⟩ := exists_bodies hdata
    exact Or.inr ⟨hlost, bodies, withoutHello_records hsizes, (List.length_map _).symm, hshows⟩

/-- Whatever the operating system makes of the sends and the tries to connect, every connection on
which a client announces itself looks like a visit to a host of the first whitelist. The credentials
must fit the session id of the format, and payloads and hosts its records. -/
theorem client_looks_like_visitor {files : List (Option (List UByte))} {cred : Credentials}
    (hcred : cred.key.length + cred.user.length + 4 ≤ 32) (connected : Bool) (start : SendOutcome)
    {m : QVPNPacketManager} (hm : m.DefaultConfig) {captures : List (Option Captured × SendOutcome)}
    (hreads : Reads captures items) (hsend : ∀ item ∈ items, item.1.Sendable)
    (hshort : ∀ item ∈ items, item.1.data.length ≤ 16384)
    (hhellos : ∀ net ∈ start :: items.map Prod.snd,
      net.hello.Drawn files ∧ net.hello.host.length ≤ 16209) :
    ∃ calls, clientRun cred connected start m captures = .ok calls ∧
      ∀ c ∈ connections false calls, LooksLikeVisit files cred
        (∃ net ∈ start :: items.map Prod.snd, net.hello.net.sent = false) items c := by
  have hlength : cred.cryptoData.length ≤ 32 := by
    simp only [Credentials.cryptoData, List.length_append, List.length_cons, List.length_nil]
    omega
  have hdata : ∀ item ∈ items, ∀ id,
      IsData items (wholeRecord id item.1.toQTunnelProxy item.1.data) :=
    fun item hitem => isData_wholeRecord hitem (hsend item hitem) (hshort item hitem)
  have hinits : ∀ net ∈ start :: items.map Prod.snd,
      IsHello files cred (initHello net.hello.rnd net.hello.host cred) ∧
        (net.hello.net.sent = false →
          ∃ net ∈ start :: items.map Prod.snd, net.hello.net.sent = false) := by
    intro net hnet
    obtain ⟨hdrawn, hsize⟩ := hhellos net hnet
    exact ⟨⟨net.hello, hdrawn, hsize, rfl⟩, fun hsent => ⟨net, hnet, hsent⟩⟩
  obtain ⟨calls, hcalls, hspeaks⟩ :=
    speaks_clientRun connected start hm hreads hsend hshort hdata hinits
  refine ⟨calls, hcalls, ?_⟩
  obtain ⟨sends, rest, hconnections, hfirst, -, hrest⟩ := hspeaks.connections false
  rw [hconnections]
  intro c hc
  obtain rfl | hc := List.mem_cons.mp hc
  · exact Ordered.looksLikeVisit hlength (Or.inr ⟨Or.inl rfl, hfirst rfl⟩)
  · exact (hrest c hc).looksLikeVisit hlength

/-- A whitelist of one host: "vk.com 1". -/
def oneHost : List UByte := [118, 107, 46, 99, 111, 109, 32, 49]

theorem parseElements_oneHost : QVPNWhitelist.parseElements oneHost =
    [⟨[118, 107, 46, 99, 111, 109], 1⟩] := by
  have hword : extractWord oneHost = some ([118, 107, 46, 99, 111, 109], [32, 49]) := by decide
  have hnumber : extractInt [32, 49] = some (1, []) := by decide
  have hend : QVPNWhitelist.parseElements [] = [] := by
    rw [QVPNWhitelist.parseElements]
    rfl
  rw [QVPNWhitelist.parseElements, hword]
  dsimp only
  rw [hnumber]
  dsimp only
  rw [hend]

/-- Sends succeed or not, and a hello to this host is always sent. -/
def visiting (sent : Bool) : SendOutcome :=
  ⟨fun _ => sent, fun _ => true,
    ⟨zeroRandom, [118, 107, 46, 99, 111, 109], ⟨true, ⟨⟨true, 0⟩, []⟩⟩⟩⟩

theorem visiting_drawn (sent : Bool) : (visiting sent).hello.Drawn [some oneHost] := by
  refine ⟨0, ?_⟩
  rw [getWhitelistElement, List.map_singleton, readAt_cons_zero, ok_bind,
    QVPNWhitelist.getRandomHost, QVPNWhitelist.parseWhitelist, Option.map_some, Option.getD_some,
    parseElements_oneHost, readAt_cons_zero, ok_bind]
  rfl

/-- A client that loses its connection visits the host twice. -/
theorem client_looks_like_visitor_twice : ∃ calls,
    clientRun guest true (visiting true) (initial .increasing)
        [(some ⟨capturedQuery, 30⟩, visiting true), (some ⟨capturedQuery, 30⟩, visiting false),
          (some ⟨capturedQuery, 30⟩, visiting true)] = .ok calls ∧
      ∀ c ∈ connections false calls, LooksLikeVisit [some oneHost] guest
        (∃ net ∈ [visiting true, visiting true, visiting false, visiting true],
          net.hello.net.sent = false)
        [(query, visiting true), (query, visiting false), (query, visiting true)] c := by
  have hitems : ∀ item ∈ [(query, visiting true), (query, visiting false), (query, visiting true)],
      item.1 = query := by
    simp
  have hnets : ∀ net ∈ [visiting true, visiting true, visiting false, visiting true],
      net.hello.Drawn [some oneHost] ∧ net.hello.host.length ≤ 16209 := by
    intro net hnet
    obtain ⟨sent, rfl⟩ : ∃ sent, net = visiting sent := by
      simp only [List.mem_cons, List.not_mem_nil, or_false] at hnet
      obtain rfl | rfl | rfl | rfl := hnet
      · exact ⟨_, rfl⟩
      · exact ⟨_, rfl⟩
      · exact ⟨_, rfl⟩
      · exact ⟨_, rfl⟩
    exact ⟨visiting_drawn sent, show 6 ≤ 16209 by decide⟩
  exact client_looks_like_visitor (by decide) true (visiting true) (initial_defaultConfig _)
    (.read _ readPacket_capturedQuery (.read _ readPacket_capturedQuery
      (.read _ readPacket_capturedQuery .nil)))
    (by intro item hitem; rw [hitems item hitem]; exact query_unsplit.sendable)
    (by intro item hitem; rw [hitems item hitem]; decide) hnets

end Seen

end QVPN
