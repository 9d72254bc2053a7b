import QVPN.Driver.Capture
import QVPN.Driver.Client
import QVPN.Properties.Handshake
import QVPN.Properties.RoundTrip

/-!
# What reaches the server from a client that loses its connection

The calls of a client fall into connections: a try to reconnect ends the one before, and a send
belongs to the last one. On a connection that is alive the client's hello comes first, if it was
sent, and then the records of the packets that were captured until the next send fails.

The client does not look at whether its hello was sent. A connection without it is closed by the
server, and what the client sends there is lost. So exactly those packets reach the server that were
sent over a connection that was announced.
-/

namespace QVPN

open Memory QVPNLayersSettings QVPNPacketManager QVPNClientDriver

/-- The byte strings sent over one connection after the other, and which of them are alive. The
first one goes on from before. -/
def connections (alive : Bool) : List SocketCall → List (Bool × List (List UByte))
  | [] => [(alive, [])]
  | .connect success :: calls => (alive, []) :: connections success calls
  | .reconnect success :: calls => (alive, []) :: connections success calls
  | .send bytes success :: calls =>
    if success then (connections alive calls).modifyHead fun c => (c.1, bytes :: c.2)
    else connections alive calls
  | .receive _ :: calls => connections alive calls

/-- The calls about the records of a packet, by their numbers. -/
def recordCalls (cred : Credentials) (net : SendOutcome) :
    List (ℕ × List UByte) → Except Fault (List SocketCall)
  | [] => .ok []
  | (i, record) :: rest =>
    if net.sent i = false then do
      let (success, tries) := tryReconnect net.reconnected 20
      let calls ← initIf cred success net.hello
      return .send record false :: (tries ++ calls)
    else do
      let calls ← recordCalls cred net rest
      return .send record true :: calls

/-- Whether a connection is alive after a packet, and whether it is announced. -/
def SendOutcome.announced (net : SendOutcome) : Bool :=
  (tryReconnect net.reconnected 20).1 && net.hello.net.sent

/-- The packets of a run that are sent over an announced connection. -/
def delivered (announced : Bool) : List (QTunnelData × SendOutcome) → List QTunnelData
  | [] => []
  | (packet, net) :: later =>
    if net.sent 0 then
      (if announced then [packet] else []) ++ delivered announced later
    else delivered net.announced later

/-- What is sent before the first send that fails. -/
def beforeFailure {α : Type} : List (α × SendOutcome) → List α
  | [] => []
  | (packet, net) :: later => if net.sent 0 then packet :: beforeFailure later else []

/-- No packet is cut: a send that fails is that of the packet's first record. -/
def Whole (item : QTunnelData × SendOutcome) : Prop :=
  item.1.data.length < 65229 ∨ (item.2.sent 0 = true → item.2.sent 1 = true)

/-- A run of the client's capture loop behind its start. -/
def clientRun (cred : Credentials) (connected : Bool) (start : SendOutcome) (m : QVPNPacketManager)
    (captures : List (Option Captured × SendOutcome)) : Except Fault (List SocketCall) := do
  let first ← initDriver cred connected start
  let (calls, _) ← outgoingCaptureLoop cred defaultLayers m captures
  return first ++ calls

/-- What the server makes of one connection: what is sent first is its hello, and what is sent
behind it is decoded if that started a tunnel. Nothing arrives over a connection that is not
alive. -/
def serveConnection (checkUser : List UByte → Bool) (draws : HelloDraws) (m : QVPNPacketManager)
    (c : Bool × List (List UByte)) : Except Fault (List (Option QTunnelData) × QVPNPacketManager) :=
  if c.1 then do
    let accepted ← QVPNServerDriver.listenAndConnectSocket checkUser draws
      ⟨⟨⟨true, 0⟩, c.2.headD []⟩, true⟩
    if accepted.tunnel.isSome then decodeRecords defaultLayers m c.2.tail else return ([], m)
  else .ok ([], m)

/-- The connections of a client are served one after the other. -/
def serveConnections (checkUser : List UByte → Bool) (draws : HelloDraws) (m : QVPNPacketManager) :
    List (Bool × List (List UByte)) → Except Fault (List (Option QTunnelData) × QVPNPacketManager)
  | [] => .ok ([], m)
  | c :: later => do
    let (packets, m) ← serveConnection checkUser draws m c
    let (rest, m) ← serveConnections checkUser draws m later
    return (packets ++ rest, m)

/-- What a run of the capture loop reads of the packets that it captures. -/
inductive Reads : List (Option Captured × SendOutcome) → List (QTunnelData × SendOutcome) → Prop
  | nil : Reads [] []
  | skip {captures items} (net : SendOutcome) (h : Reads captures items) :
    Reads ((none, net) :: captures) items
  | read {captures items} {c : Captured} {packet : QTunnelData} (net : SendOutcome)
    (hread : c.readPacket = .ok (packet.toQTunnelProxy, packet.data)) (h : Reads captures items) :
    Reads ((some c, net) :: captures) ((packet, net) :: items)

section Calls

variable {cred : Credentials} {net : SendOutcome}

/-- Announcing never faults. -/
theorem initIf_eq (cred : Credentials) (success : Bool) (hello : HelloOutcome) :
    initIf cred success hello = .ok (if success then initCalls cred hello else []) := by
  cases success with
  | false => rfl
  | true =>
    rw [initIf, init_eq]
    rfl

/-- The calls when a send fails. -/
theorem recordCalls_failed {i : ℕ} (hsent : net.sent i = false) (record : List UByte)
    (rest : List (ℕ × List UByte)) : recordCalls cred net ((i, record) :: rest) =
      .ok (.send record false :: ((tryReconnect net.reconnected 20).2 ++
        if (tryReconnect net.reconnected 20).1 then initCalls cred net.hello else [])) := by
  rw [recordCalls, if_pos hsent]
  dsimp only
  rw [initIf_eq]
  rfl

/-- The calls when a send succeeds. -/
theorem recordCalls_sent {i : ℕ} (hsent : net.sent i = true) {record : List UByte}
    {rest : List (ℕ × List UByte)} {calls : List SocketCall}
    (hrest : recordCalls cred net rest = .ok calls) :
    recordCalls cred net ((i, record) :: rest) = .ok (.send record true :: calls) := by
  rw [recordCalls, if_neg (by rw [hsent]; decide), hrest]
  rfl

/-- Cutting the records out one by one makes no difference. -/
theorem sendLoop_eq {packet : SplittedPacket} {indices : List ℕ} {records : List (List UByte)}
    (h : indices.mapM packet.getRawPacket = .ok records) :
    sendLoop cred packet net indices = recordCalls cred net (indices.zip records) := by
  induction indices generalizing records with
  | nil =>
    cases Except.ok.inj h
    rfl
  | cons i indices ih =>
    rw [List.mapM_cons] at h
    obtain ⟨record, hrecord, h⟩ := bind_eq_ok_iff.mp h
    obtain ⟨later, hlater, h⟩ := bind_eq_ok_iff.mp h
    cases Except.ok.inj h
    rw [sendLoop, hrecord, List.zip_cons_cons, recordCalls, ok_bind, ih hlater]

/-- What the client calls for a packet is what it calls for the packet's records. -/
theorem encodeAndSend_eq {m : QVPNPacketManager} (hm : m.DefaultConfig) {packet : QTunnelData}
    (hpacket : packet.Sendable) {records : List (List UByte)}
    (hrecords : packetRecords m.lastPacketId packet.toQTunnelProxy packet.data = records)
    {calls : List SocketCall}
    (hcalls : recordCalls cred net ((List.range records.length).zip records) = .ok calls) :
    QVPNClientDriver.encodeAndSend cred defaultLayers m net packet.toQTunnelProxy packet.data =
      .ok (calls, m.nextPacketId) := by
  obtain ⟨split, hencode, hread⟩ := encodeData_records hm hpacket.valid hpacket.size
  rw [hrecords] at hread
  have hsize : records.length = split.size := by
    rw [mapM_length hread, List.length_range]
  rw [hsize] at hcalls
  rw [QVPNClientDriver.encodeAndSend, hencode, ok_bind]
  dsimp only
  rw [sendLoop_eq hread, hcalls]
  rfl

end Calls

section Connections

/-- Each try to reconnect ends a connection, and only the last one may begin a live one. -/
theorem connections_tries (reconnected : ℕ → Bool) (n : ℕ) (rest : List SocketCall) :
    ∃ k, ∀ alive, connections alive ((tryReconnect reconnected (n + 1)).2 ++ rest) =
      (alive, []) :: (List.replicate k (false, []) ++
        connections (tryReconnect reconnected (n + 1)).1 rest) := by
  induction n with
  | zero =>
    refine ⟨0, ?_⟩
    intro alive
    cases h : reconnected (0 + 1) with
    | false =>
      simp only [tryReconnect, h]
      rfl
    | true =>
      simp only [tryReconnect, h]
      rfl
  | succ n ih =>
    cases h : reconnected (n + 1 + 1) with
    | true =>
      refine ⟨0, ?_⟩
      intro alive
      rw [tryReconnect, h]
      rfl
    | false =>
      obtain ⟨k, hk⟩ := ih
      refine ⟨k + 1, ?_⟩
      intro alive
      rw [tryReconnect, h, if_neg (by decide)]
      dsimp only
      rw [List.cons_append, connections, hk]
      rfl

/-- A packet's sends come first on the connection that it finds. -/
theorem connections_sends (alive : Bool) (records : List (List UByte)) (rest : List SocketCall) :
    connections alive (records.map (fun record => .send record true) ++ rest) =
      (connections alive rest).modifyHead fun c => (c.1, records ++ c.2) := by
  induction records with
  | nil =>
    rw [List.map_nil, List.nil_append]
    cases connections alive rest with
    | nil => rfl
    | cons c later => rfl
  | cons record records ih =>
    rw [List.map_cons, List.cons_append, connections, if_pos rfl, ih]
    cases connections alive rest with
    | nil => rfl
    | cons c later => rfl

/-- What a client did on one connection: whether it was alive, the hello that was sent there, and
the packets. -/
structure ClientSession where
  alive : Bool
  hello : Option HelloOutcome
  packets : List (UByte × QTunnelData)

namespace ClientSession

def sends (cred : Credentials) (x : ClientSession) : Bool × List (List UByte) :=
  (x.alive, x.hello.toList.map (fun hello => initHello hello.rnd hello.host cred) ++
    recordsOf x.packets)

/-- What reaches the server over such a connection. -/
def delivers (x : ClientSession) : List QTunnelData :=
  if x.alive && x.hello.isSome then x.packets.map Prod.snd else []

end ClientSession

/-- The calls after a hello go on on the connection that it announces. -/
theorem connections_initCalls (cred : Credentials) (alive : Bool) (hello : HelloOutcome)
    (rest : List SocketCall) : connections alive (initCalls cred hello ++ rest) =
      (connections alive rest).modifyHead fun c => (c.1,
        (if hello.net.sent then [initHello hello.rnd hello.host cred] else []) ++ c.2) := by
  rw [initCalls, List.cons_append, List.cons_append, List.nil_append, connections]
  cases hello.net.sent with
  | true => rfl
  | false =>
    rw [if_neg (by decide), connections]
    cases connections alive rest with
    | nil => rfl
    | cons c later => rfl

/-- The connections behind a failing send: the one that failed, dead ones, and the one on which the
client goes on. -/
theorem connections_failed (cred : Credentials) (net : SendOutcome) {rest : List SocketCall}
    {packets : List (UByte × QTunnelData)} {sessions : List ClientSession}
    (hrest : ∀ alive, connections alive rest =
      (alive, recordsOf packets) :: sessions.map (ClientSession.sends cred)) :
    ∃ sessions' : List ClientSession,
      (∀ alive, connections alive ((tryReconnect net.reconnected 20).2 ++
        ((if (tryReconnect net.reconnected 20).1 then initCalls cred net.hello else []) ++ rest)) =
          (alive, []) :: sessions'.map (ClientSession.sends cred)) ∧
      sessions'.flatMap ClientSession.delivers =
        (if net.announced then packets.map Prod.snd else []) ++
          sessions.flatMap ClientSession.delivers ∧
      ∀ x ∈ sessions', x.packets = [] ∨ x.packets = packets ∨ x ∈ sessions := by
  obtain ⟨k, hk⟩ := connections_tries net.reconnected 19
    ((if (tryReconnect net.reconnected 20).1 then initCalls cred net.hello else []) ++ rest)
  have hannounced : net.announced =
      ((tryReconnect net.reconnected 20).1 && net.hello.net.sent) := rfl
  generalize (tryReconnect net.reconnected 20).1 = success at hk hannounced ⊢
  have hlast : connections success ((if success then initCalls cred net.hello else []) ++ rest) =
      ClientSession.sends cred ⟨success,
        if success && net.hello.net.sent then some net.hello else none, packets⟩ ::
          sessions.map (ClientSession.sends cred) := by
    cases success with
    | false =>
      rw [if_neg (by decide), List.nil_append, hrest]
      rfl
    | true =>
      rw [if_pos rfl, connections_initCalls, hrest, List.modifyHead_cons, Bool.true_and]
      cases net.hello.net.sent <;> rfl
  refine ⟨List.replicate k ⟨false, none, []⟩ ++ ⟨success, if success && net.hello.net.sent then
    some net.hello else none, packets⟩ :: sessions, ?_, ?_, ?_⟩
  · intro alive
    rw [hk, hlast, List.map_append, List.map_replicate, List.map_cons]
    rfl
  · have hdead : (List.replicate k (⟨false, none, []⟩ : ClientSession)).flatMap
        ClientSession.delivers = [] := by
      rw [List.flatMap_eq_nil_iff]
      intro x hx
      rw [List.eq_of_mem_replicate hx]
      rfl
    rw [List.flatMap_append, hdead, List.nil_append, List.flatMap_cons, hannounced]
    cases success <;> cases net.hello.net.sent <;> rfl
  · intro x hx
    obtain hx | hx := List.mem_append.mp hx
    · rw [List.eq_of_mem_replicate hx]
      exact Or.inl rfl
    · obtain rfl | hx := List.mem_cons.mp hx
      · exact Or.inr (Or.inl rfl)
      · exact Or.inr (Or.inr hx)

/-- The records of a packet that is not cut are all sent, or the first one fails. -/
theorem recordCalls_packet (cred : Credentials) {packet : QTunnelData} {net : SendOutcome}
    (hwhole : Whole (packet, net)) (id : UByte) :
    ∃ record, recordCalls cred net ((List.range
        (packetRecords id packet.toQTunnelProxy packet.data).length).zip
          (packetRecords id packet.toQTunnelProxy packet.data)) =
      .ok (if net.sent 0 then
        (packetRecords id packet.toQTunnelProxy packet.data).map (.send · true)
      else .send record false :: ((tryReconnect net.reconnected 20).2 ++
        if (tryReconnect net.reconnected 20).1 then initCalls cred net.hello else [])) := by
  rw [packetRecords]
  by_cases hsmall : packet.data.length < 65229
  · rw [if_pos hsmall]
    refine ⟨wholeRecord id packet.toQTunnelProxy packet.data, ?_⟩
    cases hsent : net.sent 0 with
    | false => exact recordCalls_failed hsent _ []
    | true => exact recordCalls_sent hsent rfl
  · rw [if_neg hsmall]
    refine ⟨firstRecord id packet.toQTunnelProxy packet.data, ?_⟩
    cases hsent : net.sent 0 with
    | false => exact recordCalls_failed hsent _ [(1, secondRecord id packet.data)]
    | true =>
      have hlater := hwhole.resolve_left hsmall hsent
      exact recordCalls_sent hsent (recordCalls_sent hlater rfl)

/-- The connections of a run of the capture loop, and the packets whose records are on them. -/
theorem connections_outgoingCaptureLoop (cred : Credentials) {m : QVPNPacketManager}
    (hm : m.DefaultConfig) {captures : List (Option Captured × SendOutcome)}
    {items : List (QTunnelData × SendOutcome)} (hreads : Reads captures items)
    (hsend : ∀ item ∈ items, item.1.Sendable) (hwhole : ∀ item ∈ items, Whole item) :
    ∃ calls m', outgoingCaptureLoop cred defaultLayers m captures = .ok (calls, m') ∧
      ∃ (packets : List (UByte × QTunnelData)) (sessions : List ClientSession),
        (∀ alive, connections alive calls = (alive, recordsOf packets) ::
          sessions.map (ClientSession.sends cred)) ∧
        (∀ announced, delivered announced items =
          (if announced then packets.map Prod.snd else []) ++
            sessions.flatMap ClientSession.delivers) ∧
        packets.map Prod.snd = beforeFailure items ∧
        (∀ e ∈ packets, e.2.Sendable) ∧ ∀ x ∈ sessions, ∀ e ∈ x.packets, e.2.Sendable := by
  induction hreads generalizing m with
  | nil =>
    refine ⟨[], m, rfl, [], [], ?_, ?_, rfl, ?_, ?_⟩
    · intro alive
      rfl
    · intro announced
      cases announced <;> rfl
    · intro e he
      cases he
    · intro x hx
      cases hx
  | skip net h ih => exact ih hm hsend hwhole
  | read net hread h ih =>
    next packet =>
    obtain ⟨later, m', hlater, packets, sessions, hconnections, hdelivered, hfirst, hpackets,
      hsessions⟩ :=
      ih (m := m.nextPacketId) ⟨hm.max_size, hm.split_size⟩
        (by intro item hitem; exact hsend item (List.mem_cons_of_mem _ hitem))
        (by intro item hitem; exact hwhole item (List.mem_cons_of_mem _ hitem))
    have hpacket := hsend (packet, net) (List.mem_cons_self ..)
    obtain ⟨record, hrecord⟩ := recordCalls_packet cred
      (hwhole (packet, net) (List.mem_cons_self ..)) m.lastPacketId
    have hencode := encodeAndSend_eq hm hpacket rfl hrecord
    generalize hcalls : (if net.sent 0 then _ else _) = calls at hencode
    refine ⟨calls ++ later, m', ?_, ?_⟩
    · rw [outgoingCaptureLoop, hread, ok_bind]
      dsimp only
      rw [hencode, ok_bind]
      dsimp only
      rw [hlater]
      rfl
    subst hcalls
    cases hsent : net.sent 0 with
    | true =>
      refine ⟨(m.lastPacketId, packet) :: packets, sessions, ?_, ?_, ?_, ?_, hsessions⟩
      · intro alive
        rw [if_pos rfl, connections_sends, hconnections, recordsOf_cons]
        rfl
      · intro announced
        rw [delivered, if_pos hsent, hdelivered]
        cases announced <;> rfl
      · rw [beforeFailure, if_pos hsent, List.map_cons, hfirst]
      · intro e he
        obtain rfl | he := List.mem_cons.mp he
        · exact hpacket
        · exact hpackets e he
    | false =>
      obtain ⟨sessions', hfailed, hdelivers, hfrom⟩ := connections_failed cred net hconnections
      refine ⟨[], sessions', ?_, ?_, ?_, ?_, ?_⟩
      · intro alive
        rw [if_neg (by decide), List.cons_append, connections, if_neg (by decide),
          List.append_assoc, hfailed]
        rfl
      · intro announced
        rw [delivered, if_neg (by rw [hsent]; decide), hdelivered, hdelivers]
        cases announced <;> rfl
      · rw [beforeFailure, if_neg (by rw [hsent]; decide)]
        rfl
      · intro e he
        cases he
      · intro x hx e he
        obtain hnone | hsame | hlater := hfrom x hx
        · rw [hnone] at he
          cases he
        · rw [hsame] at he
          exact hpackets e he
        · exact hsessions x hlater e he

/-- The connections of a client from its start on. -/
theorem connections_clientRun (cred : Credentials) (connected : Bool) (start : SendOutcome)
    {m : QVPNPacketManager} (hm : m.DefaultConfig) {captures : List (Option Captured × SendOutcome)}
    {items : List (QTunnelData × SendOutcome)} (hreads : Reads captures items)
    (hsend : ∀ item ∈ items, item.1.Sendable) (hwhole : ∀ item ∈ items, Whole item) :
    ∃ calls, clientRun cred connected start m captures = .ok calls ∧
      ∃ sessions : List ClientSession,
      connections false calls = sessions.map (ClientSession.sends cred) ∧
      sessions.flatMap ClientSession.delivers = delivered
        ((connected || (tryReconnect start.reconnected 20).1) && start.hello.net.sent) items ∧
      ∀ x ∈ sessions, ∀ e ∈ x.packets, e.2.Sendable := by
  obtain ⟨later, m', hlater, packets, sessions, hconnections, hdelivered, -, hpackets,
      hsessions⟩ :=
    connections_outgoingCaptureLoop cred hm hreads hsend hwhole
  cases connected with
  | true =>
    refine ⟨.connect true :: initCalls cred start.hello ++ later, ?_,
      ⟨false, none, []⟩ ::
        ⟨true, if start.hello.net.sent then some start.hello else none, packets⟩ :: sessions,
      ?_, ?_, ?_⟩
    · rw [clientRun, initDriver, if_pos rfl, initIf_eq, ok_bind, if_pos rfl, hlater]
      rfl
    · rw [List.cons_append, connections, connections_initCalls, hconnections]
      cases start.hello.net.sent <;> rfl
    · rw [hdelivered]
      cases start.hello.net.sent <;> rfl
    · intro x hx e he
      obtain rfl | hx := List.mem_cons.mp hx
      · cases he
      · obtain rfl | hx := List.mem_cons.mp hx
        · exact hpackets e he
        · exact hsessions x hx e he
  | false =>
    obtain ⟨sessions', hfailed, hdelivers, hfrom⟩ := connections_failed cred start hconnections
    refine ⟨.connect false :: ((tryReconnect start.reconnected 20).2 ++
      ((if (tryReconnect start.reconnected 20).1 then initCalls cred start.hello else []) ++
        later)),
      ?_, ⟨false, none, []⟩ :: ⟨false, none, []⟩ :: sessions', ?_, ?_, ?_⟩
    · rw [clientRun, initDriver, if_neg (by decide)]
      dsimp only
      rw [initIf_eq, ok_bind, hlater, ← List.append_assoc]
      rfl
    · rw [connections, hfailed]
      rfl
    · rw [hdelivered, Bool.false_or]
      exact hdelivers
    · intro x hx e he
      obtain rfl | hx := List.mem_cons.mp hx
      · cases he
      · obtain rfl | hx := List.mem_cons.mp hx
        · cases he
        · obtain hnone | hsame | hlater := hfrom x hx
          · rw [hnone] at he
            cases he
          · rw [hsame] at he
            exact hpackets e he
          · exact hsessions x hlater e he

end Connections

section Server

variable {checkUser : List UByte → Bool} {draws : HelloDraws} {m : QVPNPacketManager}
  {packets : List (UByte × QTunnelData)}

/-- Of records in order only the packets that become complete matter. -/
theorem incomingCaptureLoop_eq (m : QVPNPacketManager) {records : List (List UByte)}
    (hrecords : ∀ record ∈ records, record ≠ []) : incomingCaptureLoop m records = (do
      let (packets, m) ← decodeRecords defaultLayers m records
      return (packets.reduceOption, m)) := by
  induction records generalizing m with
  | nil => rfl
  | cons record records ih =>
    have hne : record.length ≠ 0 := by
      rw [Ne, List.length_eq_zero_iff]
      exact hrecords record (List.mem_cons_self ..)
    rw [incomingCaptureLoop, if_neg hne, decodeRecords, bind_assoc]
    congr 1
    funext result
    obtain ⟨packet, m⟩ := result
    dsimp only
    rw [ih m (by intro r hr; exact hrecords r (List.mem_cons_of_mem _ hr)), bind_assoc, bind_assoc]
    congr 1
    funext later
    cases packet <;> rfl

/-- No record of a packet is empty. -/
theorem ne_nil_of_mem_recordsOf {record : List UByte} (h : record ∈ recordsOf packets) :
    record ≠ [] := by
  obtain ⟨e, _, he⟩ := List.mem_flatMap.mp h
  rw [packetRecords] at he
  split at he
  · rw [List.mem_singleton.mp he]
    exact wholeRecord_ne_nil _ _ _
  · obtain rfl | he := List.mem_cons.mp he
    · exact firstRecord_ne_nil _ _ _
    · rw [List.mem_singleton.mp he]
      exact secondRecord_ne_nil _ _

/-- The records of packets are decoded to the packets. -/
theorem decodeRecords_recordsOf (hm : m.Empty) (hcached : m.cached = none)
    (hsend : ∀ e ∈ packets, e.2.Sendable) :
    ∃ decoded, decodeRecords defaultLayers m (recordsOf packets) = .ok (decoded, m) ∧
      decoded.reduceOption = packets.map Prod.snd := by
  have hloop := incomingCaptureLoop_recordsOf hm hcached hsend
  rw [incomingCaptureLoop_eq m fun record h => ne_nil_of_mem_recordsOf h] at hloop
  obtain ⟨⟨decoded, m'⟩, hdecode, hreturn⟩ := bind_eq_ok_iff.mp hloop
  obtain ⟨hpackets, rfl⟩ := Prod.mk.inj (Except.ok.inj hreturn)
  exact ⟨decoded, hdecode, hpackets⟩

/-- A connection that does not begin with a handshake record is closed. -/
theorem listenAndConnectSocket_unannounced {received : List UByte}
    (hfirst : (receiveBuffer received).getD 0 0 ≠ 22) :
    QVPNServerDriver.listenAndConnectSocket checkUser draws ⟨⟨⟨true, 0⟩, received⟩, true⟩ =
      .ok ⟨[], none⟩ := by
  have hread : readAt (receiveBuffer received) 0 = .ok ((receiveBuffer received).getD 0 0) :=
    readAt_getD (Nat.lt_of_lt_of_le (by decide) (receiveBuffer_length_ge received)) 0
  rw [QVPNServerDriver.listenAndConnectSocket, if_neg Bool.true_eq_false_eq_False,
    QVPNServerDriver.checkHello, hread, ok_bind, if_pos hfirst]
  rfl

/-- A record of a packet is not a handshake record, and neither is nothing. -/
theorem getD_headD_recordsOf (packets : List (UByte × QTunnelData)) :
    (receiveBuffer ((recordsOf packets).headD [])).getD 0 0 ≠ 22 := by
  cases packets with
  | nil =>
    rw [recordsOf, List.flatMap_nil, List.headD_nil, getD_receiveBuffer_nil]
    decide
  | cons e later =>
    rw [recordsOf_cons, packetRecords]
    split
    · exact (by decide : (23 : UByte) ≠ 22)
    · exact (by decide : (23 : UByte) ≠ 22)

/-- What the server makes of a connection that is alive. -/
theorem serveConnection_live (sends : List (List UByte)) :
    serveConnection checkUser draws m (true, sends) = (do
      let accepted ← QVPNServerDriver.listenAndConnectSocket checkUser draws
        ⟨⟨⟨true, 0⟩, sends.headD []⟩, true⟩
      if accepted.tunnel.isSome then decodeRecords defaultLayers m sends.tail
      else return ([], m)) := rfl

/-- What the server decodes of one connection of the client. -/
theorem serveConnection_sends {cred : Credentials}
    (hfits : cred.key.length + cred.user.length + 4 ≤ 255) (hm : m.Empty)
    (hcached : m.cached = none) {x : ClientSession} (hsend : ∀ e ∈ x.packets, e.2.Sendable) :
    ∃ decoded, serveConnection checkUser draws m (x.sends cred) = .ok (decoded, m) ∧
      decoded.reduceOption = if checkUser cred.user then x.delivers else [] := by
  obtain ⟨alive, hello, packets⟩ := x
  cases alive with
  | false =>
    refine ⟨[], rfl, ?_⟩
    rw [ClientSession.delivers, Bool.false_and, if_neg Bool.false_ne_true, ite_self]
    rfl
  | true =>
    cases hello with
    | none =>
      refine ⟨[], ?_, ?_⟩
      · have hsends : ClientSession.sends cred ⟨true, none, packets⟩ =
            (true, recordsOf packets) := rfl
        rw [hsends, serveConnection_live,
          listenAndConnectSocket_unannounced (getD_headD_recordsOf packets)]
        rfl
      · rw [ClientSession.delivers, Option.isSome_none, Bool.and_false,
          if_neg Bool.false_ne_true, ite_self]
        rfl
    | some hello =>
      obtain ⟨record, hrecord, -⟩ := exists_answerRecord draws
      obtain ⟨n, hn⟩ : ∃ n, n = 44 + cred.cryptoData.length +
        (QVPNClientDriver.initHello hello.rnd hello.host cred).length := ⟨_, rfl⟩
      have haccept := listenAndConnectSocket_hello checkUser hello.rnd hello.host hfits
        (show 44 + cred.cryptoData.length ≤ n by omega) true true true hrecord
      rw [if_pos rfl, List.take_of_length_le (by omega), Bool.true_and, Bool.true_and, if_pos rfl]
        at haccept
      obtain ⟨decoded, hdecode, hdecoded⟩ := decodeRecords_recordsOf hm hcached hsend
      have hsends : ClientSession.sends cred ⟨true, some hello, packets⟩ =
          (true, QVPNClientDriver.initHello hello.rnd hello.host cred :: recordsOf packets) := rfl
      rw [hsends, serveConnection_live, List.headD_cons, List.tail_cons, haccept]
      cases huser : checkUser cred.user with
      | false =>
        exact ⟨[], rfl, rfl⟩
      | true =>
        refine ⟨decoded, hdecode, ?_⟩
        rw [if_pos rfl]
        exact hdecoded

/-- What the server decodes of all of them. -/
theorem serveConnections_sends {cred : Credentials}
    (hfits : cred.key.length + cred.user.length + 4 ≤ 255) (hm : m.Empty)
    (hcached : m.cached = none) {sessions : List ClientSession}
    (hsend : ∀ x ∈ sessions, ∀ e ∈ x.packets, e.2.Sendable) :
    ∃ decoded, serveConnections checkUser draws m (sessions.map (ClientSession.sends cred)) =
        .ok (decoded, m) ∧
      decoded.reduceOption =
        if checkUser cred.user then sessions.flatMap ClientSession.delivers else [] := by
  induction sessions with
  | nil => exact ⟨[], rfl, (ite_self _).symm⟩
  | cons x sessions ih =>
    obtain ⟨first, (hfirst : serveConnection checkUser draws m _ = _), hreduce⟩ :=
      serveConnection_sends hfits hm hcached (hsend x (List.mem_cons_self ..))
    obtain ⟨rest, hrest, hlater⟩ := ih fun y hy => hsend y (List.mem_cons_of_mem _ hy)
    refine ⟨first ++ rest, ?_, ?_⟩
    · rw [List.map_cons, serveConnections, hfirst, ok_bind]
      dsimp only
      rw [hrest]
      rfl
    · have happend : (first ++ rest).reduceOption = first.reduceOption ++ rest.reduceOption :=
        List.filterMap_append
      rw [happend, hreduce, hlater, List.flatMap_cons]
      cases checkUser cred.user <;> rfl

/-- Whatever the operating system makes of a client's sends and of its tries to connect, the server
decodes exactly those packets, whole, once and in order, that were sent over an announced connection
of a registered user, and it keeps nothing of the others. -/
theorem server_decodes_delivered (checkUser : List UByte → Bool) (draws : HelloDraws)
    {cred : Credentials} (hfits : cred.key.length + cred.user.length + 4 ≤ 255) (connected : Bool)
    (start : SendOutcome) {client server : QVPNPacketManager} (hclient : client.DefaultConfig)
    (hempty : server.Empty) (hcached : server.cached = none)
    {captures : List (Option Captured × SendOutcome)} {items : List (QTunnelData × SendOutcome)}
    (hreads : Reads captures items) (hsend : ∀ item ∈ items, item.1.Sendable)
    (hwhole : ∀ item ∈ items, Whole item) :
    ∃ calls decoded, clientRun cred connected start client captures = .ok calls ∧
      serveConnections checkUser draws server (connections false calls) = .ok (decoded, server) ∧
      decoded.reduceOption = if checkUser cred.user then delivered
        ((connected || (tryReconnect start.reconnected 20).1) && start.hello.net.sent) items
      else [] := by
  obtain ⟨calls, hcalls, sessions, hconnections, hdelivers, hsessions⟩ :=
    connections_clientRun cred connected start hclient hreads hsend hwhole
  obtain ⟨decoded, (hserve : serveConnections checkUser draws server _ = _), hdecoded⟩ :=
    serveConnections_sends hfits hempty hcached hsessions
  refine ⟨calls, decoded, hcalls, ?_, ?_⟩
  · rw [hconnections]
    exact hserve
  · rw [hdecoded, hdelivers]

/-- Every send succeeds, or none does; a try to reconnect succeeds and the hello is sent. -/
def answers (sent : Bool) : SendOutcome :=
  ⟨fun _ => sent, fun _ => true, ⟨zeroRandom, [], ⟨true, ⟨⟨true, 0⟩, []⟩⟩⟩⟩

theorem readPacket_capturedQuery :
    Captured.readPacket ⟨capturedQuery, 30⟩ = .ok (query.toQTunnelProxy, query.data) := by decide

/-- Of three captures of one query, the second of which is lost, two arrive. -/
theorem server_decodes_delivered_queries : ∃ calls decoded,
    clientRun guest true (answers true) (initial .increasing)
        [(some ⟨capturedQuery, 30⟩, answers true), (some ⟨capturedQuery, 30⟩, answers false),
          (some ⟨capturedQuery, 30⟩, answers true)] = .ok calls ∧
      serveConnections (fun _ => true) zeroDraws (initial .increasing) (connections false calls) =
        .ok (decoded, initial .increasing) ∧
      decoded.reduceOption = [query, query] := by
  have hitems : ∀ item ∈ [(query, answers true), (query, answers false), (query, answers true)],
      item.1 = query := by
    simp
  exact server_decodes_delivered (fun _ => true) zeroDraws (by decide) true (answers true)
    (initial_defaultConfig _) (initial_empty _) rfl
    (.read _ readPacket_capturedQuery (.read _ readPacket_capturedQuery
      (.read _ readPacket_capturedQuery .nil)))
    (by intro item hitem; rw [hitems item hitem]; exact query_unsplit.sendable)
    (by intro item hitem; exact Or.inl (by rw [hitems item hitem]; decide))

end Server

end QVPN
