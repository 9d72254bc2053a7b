import QVPN.Driver.Server
import QVPN.Properties.RoundTrip

/-!
# The records of one receive

One receive can return several records. The request loop decodes them one after the other, but
it returns from the middle of the list in four cases: a record completes no packet, the
connection of a packet has no socket, a send fails, or a packet resets its connection. The
records behind are gone then, because the next iteration receives anew.

Nothing is lost exactly when none of the cases occurs before the last record.
-/

namespace QVPN

open Memory QVPNLayersSettings QVPNPacketManager

/-- The address of the server in the key of a packet, once a connection was tried for it. -/
def ConnectOutcome.serverAddr (net : ConnectOutcome) : NetAddr :=
  if net.rawSocket.isSome && net.bound then net.localAddr else .default

namespace Connections

/-- A handed-over packet is the one that was decoded, under its key, generated for that key, and
handed to the socket of its connection. -/
structure Carries (c : Connections) (packet : QTunnelData) (send : ForwardedPacket) : Prop where
  packet_eq : send.packet = packet
  key : ∃ addr, send.key = { packet.key with serverLocalAddr := addr }
  socket : ∃ shadow, c.sockMap send.key = some ⟨shadow, send.rawSocket⟩
  bytes : ∃ strategy object strategy', generateSenderPacket strategy packet.create send.key
    packet.data = .ok (object, strategy') ∧ send.bytes = object.bytes

/-- No record before the last makes the loop return: its packet goes out, the send succeeds, and
the packet does not reset the connection. The packet of the last record, if any, goes out. -/
def Uninterrupted (client : Fd) : List (Option QTunnelData × RequestOutcome) → Connections → Prop
  | [], _ => True
  | (packet, net) :: rest, c =>
    (∀ p, packet = some p → ∃ sent c', c.forwardPacket net.connect client p = .ok (some sent, c')) ∧
    (rest ≠ [] → ∃ p key object c', packet = some p ∧
      c.forwardPacket net.connect client p = .ok (some (key, object), c') ∧ net.sent = true ∧
      object.isResetConnectionPacket = .ok false ∧ Uninterrupted client rest c')

/-- A record that completes no packet is the last one. -/
theorem uninterrupted_none {client : Fd} {net : RequestOutcome}
    {rest : List (Option QTunnelData × RequestOutcome)} {c : Connections} :
    Uninterrupted client ((none, net) :: rest) c ↔ rest = [] := by
  constructor
  · rintro ⟨_, hnext⟩
    by_contra hrest
    obtain ⟨p, key, object, c', hp, -⟩ := hnext hrest
    cases hp
  · intro hrest
    exact ⟨fun p hp => (nomatch hp), fun hne => absurd hrest hne⟩

/-- A packet goes out. -/
theorem Uninterrupted.forwarded {client : Fd} {net : RequestOutcome} {packet : QTunnelData}
    {rest : List (Option QTunnelData × RequestOutcome)} {c : Connections}
    (h : Uninterrupted client ((some packet, net) :: rest) c) :
    ∃ sent c', c.forwardPacket net.connect client packet = .ok (some sent, c') :=
  h.1 packet rfl

/-- A packet whose send fails, or that resets its connection, is the last one. -/
theorem uninterrupted_stop {client : Fd} {net : RequestOutcome} {packet : QTunnelData}
    {rest : List (Option QTunnelData × RequestOutcome)} {c c' : Connections}
    {key : QVPNServerSocketData} {object : FullPacketObject}
    (hforward : c.forwardPacket net.connect client packet = .ok (some (key, object), c'))
    (hstop : net.sent = true → object.isResetConnectionPacket ≠ .ok false) :
    Uninterrupted client ((some packet, net) :: rest) c ↔ rest = [] := by
  constructor
  · rintro ⟨_, hnext⟩
    by_contra hrest
    obtain ⟨p, key', object', c'', hp, hforward', hsent, hreset, -⟩ := hnext hrest
    cases hp
    cases Except.ok.inj (hforward.symm.trans hforward')
    exact hstop hsent hreset
  · intro hrest
    refine ⟨?_, fun hne => absurd hrest hne⟩
    intro p hp
    cases hp
    exact ⟨_, c', hforward⟩

/-- Behind any other packet, the rest counts. -/
theorem uninterrupted_next {client : Fd} {net : RequestOutcome} {packet : QTunnelData}
    {rest : List (Option QTunnelData × RequestOutcome)} {c c' : Connections}
    {key : QVPNServerSocketData} {object : FullPacketObject}
    (hforward : c.forwardPacket net.connect client packet = .ok (some (key, object), c'))
    (hsent : net.sent = true) (hreset : object.isResetConnectionPacket = .ok false) :
    Uninterrupted client ((some packet, net) :: rest) c ↔ Uninterrupted client rest c' := by
  constructor
  · rintro ⟨_, hnext⟩
    by_cases hrest : rest = []
    · rw [hrest]
      trivial
    · obtain ⟨p, key', object', c'', hp, hforward', -, -, hlater⟩ := hnext hrest
      cases hp
      cases Except.ok.inj (hforward.symm.trans hforward')
      exact hlater
  · intro hlater
    refine ⟨?_, fun _ => ⟨packet, key, object, c', rfl, hforward, hsent, hreset, hlater⟩⟩
    intro p hp
    cases hp
    exact ⟨_, c', hforward⟩

/-- What the loop never takes back: sockets of connections, and packets handed over. -/
structure Extends (c c' : Connections) : Prop where
  sockMap : ∀ key socket, c.sockMap key = some socket → c'.sockMap key = some socket
  sends : ∃ later, c'.sends = c.sends ++ later

theorem Extends.refl (c : Connections) : c.Extends c := ⟨fun _ _ h => h, [], by simp⟩

theorem Extends.trans {c c' c'' : Connections} (h : c.Extends c') (h' : c'.Extends c'') :
    c.Extends c'' where
  sockMap := fun key socket hkey => h'.sockMap key socket (h.sockMap key socket hkey)
  sends := by
    obtain ⟨later, hlater⟩ := h.sends
    obtain ⟨later', hlater'⟩ := h'.sends
    exact ⟨later ++ later', by rw [hlater', hlater, List.append_assoc]⟩

/-- Setting up a connection only adds entries. -/
theorem connectIfNotToServer_extends (c : Connections) (net : ConnectOutcome) (client : Fd)
    (packet : QTunnelData) : c.Extends (c.connectIfNotToServer net client packet).2 := by
  unfold connectIfNotToServer connectToServerImpl
  cases net.rawSocket with
  | none => exact Extends.refl c
  | some rawSocket =>
    dsimp only
    split
    · exact Extends.refl c
    · split
      · exact Extends.refl c
      · rename_i hnew
        split
        · exact Extends.refl c
        · refine ⟨?_, [], by simp⟩
          intro key socket hkey
          dsimp only
          rw [Function.update_of_ne, hkey]
          intro heq
          exact hnew (by rw [← heq, hkey]; rfl)

/-- The key is that of the packet, with the address of the server that trying to connect has left
in it. -/
theorem connectIfNotToServer_key (c : Connections) (net : ConnectOutcome) (client : Fd)
    (packet : QTunnelData) : (c.connectIfNotToServer net client packet).1 =
      { packet.key with serverLocalAddr := net.serverAddr } := by
  unfold connectIfNotToServer connectToServerImpl ConnectOutcome.serverAddr
  cases net.rawSocket with
  | none => rfl
  | some rawSocket =>
    dsimp only
    cases net.bound with
    | false => rfl
    | true =>
      rw [if_neg Bool.true_eq_false_eq_False]
      split
      · rfl
      · split <;> rfl

/-- A connection that could be set up has a socket afterwards. -/
theorem connectIfNotToServer_failed {c : Connections} {net : ConnectOutcome} {client : Fd}
    {packet : QTunnelData} {key : QVPNServerSocketData} {c' : Connections}
    (h : c.connectIfNotToServer net client packet = (key, c')) (hnone : c'.sockMap key = none) :
    net.rawSocket = none ∨ net.bound = false ∨ net.connected = false := by
  unfold connectIfNotToServer connectToServerImpl at h
  cases hraw : net.rawSocket with
  | none => exact Or.inl rfl
  | some rawSocket =>
    rw [hraw] at h
    dsimp only at h
    split at h
    · next hbound => exact Or.inr (Or.inl hbound)
    · split at h
      · next hsome =>
        obtain ⟨rfl, rfl⟩ := Prod.mk.inj h
        rw [hnone] at hsome
        cases hsome
      · split at h
        · next hconnected => exact Or.inr (Or.inr hconnected)
        · obtain ⟨rfl, rfl⟩ := Prod.mk.inj h
          dsimp only at hnone
          rw [Function.update_self] at hnone
          cases hnone

/-- Setting up a connection hands nothing over. -/
theorem connectIfNotToServer_sends (c : Connections) (net : ConnectOutcome) (client : Fd)
    (packet : QTunnelData) : (c.connectIfNotToServer net client packet).2.sends = c.sends := rfl

/-- What handing over a packet comes to, when it does not fault. -/
theorem forwardPacket_cases {c c' : Connections} {net : ConnectOutcome} {client : Fd}
    {packet : QTunnelData} {sent : Option (QVPNServerSocketData × FullPacketObject)}
    (h : c.forwardPacket net client packet = .ok (sent, c')) :
    c.Extends c' ∧ ((sent = none ∧ c'.sends = c.sends) ∨
      ∃ key object send, sent = some (key, object) ∧ c'.sends = c.sends ++ [send] ∧
        c'.Carries packet send ∧ object.toPacketFriendlyView = .ok ()) := by
  have hext := c.connectIfNotToServer_extends net client packet
  have hsends := c.connectIfNotToServer_sends net client packet
  have hkey := c.connectIfNotToServer_key net client packet
  unfold forwardPacket at h
  generalize c.connectIfNotToServer net client packet = connected at h hext hsends hkey
  obtain ⟨key, c₁⟩ := connected
  dsimp only at h hext hsends hkey
  cases hsocket : c₁.sockMap key with
  | none =>
    rw [hsocket] at h
    cases Except.ok.inj h
    exact ⟨hext, Or.inl ⟨rfl, hsends⟩⟩
  | some serverSocket =>
    rw [hsocket] at h
    obtain ⟨⟨object, strategy⟩, hgenerate, h⟩ := bind_eq_ok_iff.mp h
    obtain ⟨⟨⟩, hprint, h⟩ := bind_eq_ok_iff.mp h
    cases Except.ok.inj h
    refine ⟨⟨hext.sockMap, _, by rw [hsends]⟩, Or.inr ⟨key, object, _, rfl, by rw [hsends], ?_, hprint⟩⟩
    exact ⟨rfl, ⟨_, hkey⟩, ⟨serverSocket.shadowSocket, hsocket⟩, ⟨_, object, strategy, hgenerate, rfl⟩⟩

/-- Handing over a packet leaves the sockets as the connection set-up made them, and finds one of
them or none under the packet's key. -/
theorem forwardPacket_sockets {c c' : Connections} {net : ConnectOutcome} {client : Fd}
    {packet : QTunnelData} {sent : Option (QVPNServerSocketData × FullPacketObject)}
    (h : c.forwardPacket net client packet = .ok (sent, c')) :
    ∃ key, connectToServerImpl net client packet.key c.sockMap c.responseSockets =
        (key, c'.sockMap, c'.responseSockets) ∧
      (sent = none ∧ c'.sockMap key = none ∨ sent ≠ none ∧ c'.sockMap key ≠ none) := by
  unfold forwardPacket connectIfNotToServer at h
  generalize connectToServerImpl net client packet.key c.sockMap c.responseSockets = connected at h ⊢
  obtain ⟨key, sockMap, responseSockets⟩ := connected
  dsimp only at h
  cases hsocket : sockMap key with
  | none =>
    rw [hsocket] at h
    cases Except.ok.inj h
    exact ⟨key, rfl, Or.inl ⟨rfl, hsocket⟩⟩
  | some serverSocket =>
    rw [hsocket] at h
    obtain ⟨_, -, h⟩ := bind_eq_ok_iff.mp h
    obtain ⟨_, -, h⟩ := bind_eq_ok_iff.mp h
    cases Except.ok.inj h
    refine ⟨key, rfl, Or.inr ⟨Option.some_ne_none _, ?_⟩⟩
    dsimp only
    rw [hsocket]
    exact Option.some_ne_none _

/-- Carrying depends on the sockets only, and these stay. -/
theorem Carries.mono {c c' : Connections} {packet : QTunnelData} {send : ForwardedPacket}
    (h : c.Carries packet send) (hext : c.Extends c') : c'.Carries packet send := by
  obtain ⟨shadow, hsocket⟩ := h.socket
  exact ⟨h.packet_eq, h.key, ⟨shadow, hext.sockMap _ _ hsocket⟩, h.bytes⟩

end Connections

/-- Printing reads the flags, so a printed packet has its flags in its memory. -/
theorem FullPacketObject.isResetConnectionPacket_of_printed {object : FullPacketObject}
    (h : object.toPacketFriendlyView = .ok ()) : ∃ reset, object.isResetConnectionPacket = .ok reset := by
  unfold toPacketFriendlyView at h
  obtain ⟨view, hview, h⟩ := bind_eq_ok_iff.mp h
  rw [isResetConnectionPacket, hview, ok_bind]
  cases view with
  | dummy => exact ⟨false, rfl⟩
  | udp ip transport payload => exact ⟨false, rfl⟩
  | tcp ip transport payload =>
    obtain ⟨-, -, h⟩ := bind_eq_ok_iff.mp h
    obtain ⟨options, h, -⟩ := bind_eq_ok_iff.mp h
    obtain ⟨-, -, h⟩ := bind_eq_ok_iff.mp h
    obtain ⟨-, -, h⟩ := bind_eq_ok_iff.mp h
    obtain ⟨-, -, h⟩ := bind_eq_ok_iff.mp h
    obtain ⟨-, -, h⟩ := bind_eq_ok_iff.mp h
    obtain ⟨flags, hflags, -⟩ := bind_eq_ok_iff.mp h
    exact ⟨_, by rw [FullPacketView.isResetConnectionPacket,
      TcpPacketView.isResetConnectionPacket, hflags]; rfl⟩

/-- The number of results is the number of records. -/
theorem decodeRecords_length {layers : QVPNLayersSettings} {m m' : QVPNPacketManager}
    {records : List (List UByte)} {packets : List (Option QTunnelData)}
    (h : decodeRecords layers m records = .ok (packets, m')) : packets.length = records.length := by
  induction records generalizing m packets with
  | nil =>
    cases Except.ok.inj h
    rfl
  | cons record records ih =>
    obtain ⟨⟨packet, m₁⟩, -, h⟩ := bind_eq_ok_iff.mp h
    obtain ⟨⟨later, m₂⟩, hlater, h⟩ := bind_eq_ok_iff.mp h
    cases Except.ok.inj h
    rw [List.length_cons, List.length_cons, ih hlater]

namespace RequestState

/-- The loop over records that are already cut out, each with its outcomes. -/
def requestRecords (layers : QVPNLayersSettings) (client : Fd) :
    List (List UByte × RequestOutcome) → RequestState → Except Fault (Bool × RequestState)
  | [], s => .ok (true, s)
  | (record, net) :: rest, s => do
    let (exit, s) ← requestRound layers client net s record
    match exit with
    | some result => return (result, s)
    | none => requestRecords layers client rest s

/-- Cutting the objects out one by one makes no difference. -/
theorem requestLoop_eq {layers : QVPNLayersSettings} {client : Fd} {net : ℕ → RequestOutcome}
    {received : SafeReceiveData} {indices : List ℕ} {records : List (List UByte)}
    (h : indices.mapM received.getObjectBytes = .ok records) (s : RequestState) :
    requestLoop layers client net received indices s =
      requestRecords layers client (records.zip (indices.map net)) s := by
  induction indices generalizing records s with
  | nil =>
    cases Except.ok.inj h
    rfl
  | cons i indices ih =>
    rw [List.mapM_cons] at h
    obtain ⟨record, hrecord, h⟩ := bind_eq_ok_iff.mp h
    obtain ⟨later, hlater, h⟩ := bind_eq_ok_iff.mp h
    cases Except.ok.inj h
    rw [requestLoop, hrecord, List.map_cons, List.zip_cons_cons, requestRecords, ok_bind]
    congr 1
    funext round
    obtain ⟨exit, s₁⟩ := round
    cases exit with
    | some result => rfl
    | none => exact ih hlater s₁

/-- A round takes nothing back. -/
theorem requestRound_extends {layers : QVPNLayersSettings} {client : Fd} {net : RequestOutcome}
    {s s' : RequestState} {record : List UByte} {exit : Option Bool}
    (h : requestRound layers client net s record = .ok (exit, s')) :
    s.connections.Extends s'.connections := by
  unfold requestRound at h
  obtain ⟨⟨decodedData, manager⟩, -, h⟩ := bind_eq_ok_iff.mp h
  cases decodedData with
  | none =>
    cases Except.ok.inj h
    exact Connections.Extends.refl _
  | some packet =>
    obtain ⟨⟨forwarded, c⟩, hforward, h⟩ := bind_eq_ok_iff.mp h
    have hc := (Connections.forwardPacket_cases hforward).1
    cases forwarded with
    | none =>
      cases Except.ok.inj h
      exact hc
    | some sent =>
      dsimp only at h
      split at h
      · cases Except.ok.inj h
        exact hc
      · obtain ⟨reset, -, h⟩ := bind_eq_ok_iff.mp h
        cases reset with
        | true =>
          cases Except.ok.inj h
          exact ⟨hc.sockMap, hc.sends⟩
        | false =>
          cases Except.ok.inj h
          exact hc

/-- A run of the loop takes nothing back. -/
theorem requestRecords_extends {layers : QVPNLayersSettings} {client : Fd}
    {items : List (List UByte × RequestOutcome)} {s s' : RequestState} {result : Bool}
    (h : requestRecords layers client items s = .ok (result, s')) :
    s.connections.Extends s'.connections := by
  induction items generalizing s with
  | nil =>
    cases Except.ok.inj h
    exact Connections.Extends.refl _
  | cons item items ih =>
    obtain ⟨⟨exit, s₁⟩, hround, h⟩ := bind_eq_ok_iff.mp h
    have hs₁ := requestRound_extends hround
    cases exit with
    | some result =>
      cases Except.ok.inj h
      exact hs₁
    | none => exact hs₁.trans (ih h)

/-- The loop returns with every record decoded and every complete packet handed over. -/
def Complete (layers : QVPNLayersSettings) (client : Fd) (items : List (List UByte × RequestOutcome))
    (s : RequestState) (packets : List (Option QTunnelData)) (m : QVPNPacketManager) : Prop :=
  ∃ result s' sends, requestRecords layers client items s = .ok (result, s') ∧
    s'.decoded = s.decoded ++ items.map Prod.fst ∧ s'.manager = m ∧
    s'.connections.sends = s.connections.sends ++ sends ∧
    List.Forall₂ s'.connections.Carries packets.reduceOption sends

/-- An early return is complete only at the last record. -/
theorem complete_of_exit {layers : QVPNLayersSettings} {client : Fd} {record : List UByte}
    {net : RequestOutcome} {rest : List (List UByte × RequestOutcome)} {s s' : RequestState}
    {packets : List (Option QTunnelData)} {m : QVPNPacketManager} {result : Bool}
    {sends : List ForwardedPacket}
    (hround : requestRound layers client net s record = .ok (some result, s'))
    (hdecoded : s'.decoded = s.decoded ++ [record])
    (hmanager : rest = [] → s'.manager = m)
    (hsends : s'.connections.sends = s.connections.sends ++ sends) :
    Complete layers client ((record, net) :: rest) s packets m ↔
      rest = [] ∧ List.Forall₂ s'.connections.Carries packets.reduceOption sends := by
  have hrun : requestRecords layers client ((record, net) :: rest) s = .ok (result, s') := by
    rw [requestRecords, hround]
    rfl
  constructor
  · rintro ⟨result', t, sends', hrun', hall, -, hsends', hcarries⟩
    cases Except.ok.inj (hrun.symm.trans hrun')
    rw [hdecoded] at hall
    rw [hsends] at hsends'
    have hrest := List.append_cancel_left hall
    rw [List.append_cancel_left hsends']
    refine ⟨?_, hcarries⟩
    simpa using hrest
  · rintro ⟨rfl, hcarries⟩
    exact ⟨result, s', sends, hrun, hdecoded, hmanager rfl, hsends, hcarries⟩

/-- A round whose record completes no packet. -/
theorem requestRound_none {layers : QVPNLayersSettings} {client : Fd} {net : RequestOutcome}
    {s : RequestState} {record : List UByte} {m : QVPNPacketManager}
    (hdecode : decodeData layers s.manager record = .ok (none, m)) :
    requestRound layers client net s record =
      .ok (some true, ⟨m, s.decoded ++ [record], s.connections⟩) := by
  rw [requestRound, hdecode]
  rfl

/-- A round whose packet finds no socket. -/
theorem requestRound_noSocket {layers : QVPNLayersSettings} {client : Fd} {net : RequestOutcome}
    {s : RequestState} {record : List UByte} {packet : QTunnelData} {m : QVPNPacketManager}
    {c : Connections} (hdecode : decodeData layers s.manager record = .ok (some packet, m))
    (hforward : s.connections.forwardPacket net.connect client packet = .ok (none, c)) :
    requestRound layers client net s record =
      .ok (some false, ⟨m, s.decoded ++ [record], c⟩) := by
  rw [requestRound, hdecode, ok_bind]
  dsimp only
  rw [hforward]
  rfl

/-- A round whose packet goes out. -/
theorem requestRound_forwarded {layers : QVPNLayersSettings} {client : Fd} {net : RequestOutcome}
    {s : RequestState} {record : List UByte} {packet : QTunnelData} {m : QVPNPacketManager}
    {c : Connections} {key : QVPNServerSocketData} {object : FullPacketObject} {reset : Bool}
    (hdecode : decodeData layers s.manager record = .ok (some packet, m))
    (hforward : s.connections.forwardPacket net.connect client packet = .ok (some (key, object), c))
    (hreset : object.isResetConnectionPacket = .ok reset) :
    requestRound layers client net s record =
      if net.sent = false then .ok (some true, ⟨m, s.decoded ++ [record], c⟩)
      else if reset then .ok (some true, ⟨m, s.decoded ++ [record], { c with
        responseSockets := dropResponseSocket c.responseSockets key }⟩)
      else .ok (none, ⟨m, s.decoded ++ [record], c⟩) := by
  rw [requestRound, hdecode, ok_bind]
  dsimp only
  rw [hforward, ok_bind]
  dsimp only
  rw [hreset]
  rfl

/-- What a round hands over is the packet it decoded. -/
theorem requestRound_carries {layers : QVPNLayersSettings} {client : Fd} {net : RequestOutcome}
    {s s' : RequestState} {record : List UByte} {packet : QTunnelData} {m : QVPNPacketManager}
    {exit : Option Bool} {send : ForwardedPacket}
    (hdecode : decodeData layers s.manager record = .ok (some packet, m))
    (hround : requestRound layers client net s record = .ok (exit, s'))
    (hsend : s'.connections.sends = s.connections.sends ++ [send]) :
    s'.connections.Carries packet send := by
  cases hforward : s.connections.forwardPacket net.connect client packet with
  | error fault =>
    rw [requestRound, hdecode, ok_bind] at hround
    dsimp only at hround
    rw [hforward] at hround
    cases hround
  | ok forwarded =>
    obtain ⟨sent, c⟩ := forwarded
    obtain ⟨-, hcase⟩ := Connections.forwardPacket_cases hforward
    rcases hcase with ⟨rfl, hsends⟩ | ⟨key, object, send', rfl, hsends, hcarries, hprinted⟩
    · cases Except.ok.inj ((requestRound_noSocket hdecode hforward).symm.trans hround)
      rw [hsends] at hsend
      simp at hsend
    · obtain ⟨reset, hreset⟩ := FullPacketObject.isResetConnectionPacket_of_printed hprinted
      rw [requestRound_forwarded hdecode hforward hreset] at hround
      have hsame : s'.connections.sockMap = c.sockMap ∧ s'.connections.sends = c.sends := by
        split at hround
        · cases Except.ok.inj hround
          exact ⟨rfl, rfl⟩
        · split at hround
          · cases Except.ok.inj hround
            exact ⟨rfl, rfl⟩
          · cases Except.ok.inj hround
            exact ⟨rfl, rfl⟩
      rw [hsame.2, hsends] at hsend
      have heq : send' = send := by simpa using List.append_cancel_left hsend
      rw [← heq]
      obtain ⟨shadow, hsocket⟩ := hcarries.socket
      exact ⟨hcarries.packet_eq, hcarries.key, ⟨shadow, by rw [hsame.1, hsocket]⟩, hcarries.bytes⟩

/-- A round that goes on leaves its packet to be carried, and the rest of the loop to run. -/
theorem complete_of_next {layers : QVPNLayersSettings} {client : Fd} {record : List UByte}
    {net : RequestOutcome} {rest : List (List UByte × RequestOutcome)} {s s' : RequestState}
    {packet : QTunnelData} {packets : List (Option QTunnelData)} {m : QVPNPacketManager}
    {send : ForwardedPacket}
    (hround : requestRound layers client net s record = .ok (none, s'))
    (hdecoded : s'.decoded = s.decoded ++ [record])
    (hsends : s'.connections.sends = s.connections.sends ++ [send])
    (hcarries : s'.connections.Carries packet send) :
    Complete layers client ((record, net) :: rest) s (some packet :: packets) m ↔
      Complete layers client rest s' packets m := by
  have hrun : requestRecords layers client ((record, net) :: rest) s =
      requestRecords layers client rest s' := by
    rw [requestRecords, hround]
    rfl
  have hreduce : (some packet :: packets).reduceOption = packet :: packets.reduceOption := rfl
  rw [Complete, Complete, hrun, hdecoded, hsends, hreduce]
  simp only [List.map_cons, List.append_assoc, List.singleton_append]
  constructor
  · rintro ⟨result, t, sends, hrest, hall, hm, hsent, hforall⟩
    obtain ⟨later, hlater⟩ := (requestRecords_extends hrest).sends
    rw [hsends, List.append_assoc] at hlater
    have hsplit : sends = send :: later := List.append_cancel_left (hsent.symm.trans hlater)
    rw [hsplit] at hforall hsent
    exact ⟨result, t, later, hrest, hall, hm, hsent, (List.forall₂_cons.mp hforall).2⟩
  · rintro ⟨result, t, sends, hrest, hall, hm, hsent, hforall⟩
    refine ⟨result, t, send :: sends, hrest, hall, hm, hsent, ?_⟩
    exact List.Forall₂.cons (hcarries.mono (requestRecords_extends hrest)) hforall

/-- A round whose packet goes out and that returns is complete at the last record. -/
theorem complete_of_forwarded_exit {layers : QVPNLayersSettings} {client : Fd}
    {record : List UByte} {net : RequestOutcome} {rest : List (List UByte × RequestOutcome)}
    {s : RequestState} {packet : QTunnelData} {later : List (Option QTunnelData)}
    {m₁ m : QVPNPacketManager} {c c' : Connections} {send : ForwardedPacket}
    (hround : requestRound layers client net s record =
      .ok (some true, ⟨m₁, s.decoded ++ [record], c'⟩))
    (hempty : rest = [] → m₁ = m ∧ later = [])
    (hsends : c.sends = s.connections.sends ++ [send]) (hcarries : c.Carries packet send)
    (hsame : c'.sockMap = c.sockMap ∧ c'.sends = c.sends) :
    Complete layers client ((record, net) :: rest) s (some packet :: later) m ↔ rest = [] := by
  have hext : c.Extends c' := by
    refine ⟨?_, [], ?_⟩
    · rw [hsame.1]
      exact fun _ _ h => h
    · rw [hsame.2, List.append_nil]
  rw [complete_of_exit hround rfl (fun h => (hempty h).1) (hsame.2.trans hsends)]
  constructor
  · rintro ⟨hrest, _⟩
    exact hrest
  · intro hrest
    rw [(hempty hrest).2]
    exact ⟨hrest, List.Forall₂.cons (hcarries.mono hext) List.Forall₂.nil⟩

/-- The loop is complete exactly when nothing interrupts it. -/
theorem complete_iff {layers : QVPNLayersSettings} {client : Fd}
    {items : List (List UByte × RequestOutcome)} {s : RequestState}
    {packets : List (Option QTunnelData)} {m : QVPNPacketManager}
    (hdecode : decodeRecords layers s.manager (items.map Prod.fst) = .ok (packets, m)) :
    Complete layers client items s packets m ↔
      Connections.Uninterrupted client (packets.zip (items.map Prod.snd)) s.connections := by
  induction items generalizing s packets with
  | nil =>
    cases Except.ok.inj hdecode
    exact ⟨fun _ => trivial, fun _ => ⟨true, s, [], rfl, by simp, rfl, by simp, List.Forall₂.nil⟩⟩
  | cons item rest ih =>
    obtain ⟨record, net⟩ := item
    obtain ⟨⟨packet, m₁⟩, hrecord, hdecode⟩ := bind_eq_ok_iff.mp hdecode
    obtain ⟨⟨later, m₂⟩, hlater, hdecode⟩ := bind_eq_ok_iff.mp hdecode
    cases Except.ok.inj hdecode
    have hlength := decodeRecords_length hlater
    have hempty : later.zip (rest.map Prod.snd) = [] ↔ rest = [] := by
      rw [List.zip_eq_nil_iff, ← List.length_eq_zero_iff (l := later), hlength]
      simp
    have hmanager : rest = [] → m₁ = m ∧ later = [] := by
      intro hrest
      rw [hrest] at hlater
      cases Except.ok.inj hlater
      exact ⟨rfl, rfl⟩
    rw [List.map_cons, List.zip_cons_cons]
    cases packet with
    | none =>
      rw [Connections.uninterrupted_none, hempty, complete_of_exit (requestRound_none hrecord) rfl
        (fun h => (hmanager h).1) (List.append_nil _).symm]
      constructor
      · rintro ⟨hrest, _⟩
        exact hrest
      · intro hrest
        rw [(hmanager hrest).2]
        exact ⟨hrest, List.Forall₂.nil⟩
    | some packet =>
      have hreduce : (some packet :: later).reduceOption = packet :: later.reduceOption := rfl
      cases hforward : s.connections.forwardPacket net.connect client packet with
      | error fault =>
        constructor
        · rintro ⟨result, s', sends, hrun, _⟩
          rw [requestRecords, requestRound, hrecord, ok_bind] at hrun
          dsimp only at hrun
          rw [hforward] at hrun
          cases hrun
        · intro hnext
          obtain ⟨sent, c', h⟩ := hnext.forwarded
          rw [hforward] at h
          cases h
      | ok forwarded =>
        obtain ⟨sent, c⟩ := forwarded
        obtain ⟨-, hcase⟩ := Connections.forwardPacket_cases hforward
        rcases hcase with ⟨rfl, hsends⟩ | ⟨key, object, send, rfl, hsends, hcarries, hprinted⟩
        · rw [complete_of_exit (requestRound_noSocket hrecord hforward) rfl
            (fun h => (hmanager h).1) (hsends.trans (List.append_nil _).symm), hreduce]
          constructor
          · rintro ⟨_, hforall⟩
            cases hforall
          · intro hnext
            obtain ⟨sent, c', h⟩ := hnext.forwarded
            rw [hforward] at h
            cases h
        · obtain ⟨reset, hreset⟩ := FullPacketObject.isResetConnectionPacket_of_printed hprinted
          have hround := requestRound_forwarded hrecord hforward hreset
          cases hsent : net.sent with
          | false =>
            rw [hsent, if_pos rfl] at hround
            rw [complete_of_forwarded_exit hround hmanager hsends hcarries ⟨rfl, rfl⟩,
              Connections.uninterrupted_stop hforward (by simp [hsent]), hempty]
          | true =>
            rw [hsent, if_neg (by simp)] at hround
            cases reset with
            | true =>
              rw [if_pos rfl] at hround
              rw [complete_of_forwarded_exit hround hmanager hsends hcarries ⟨rfl, rfl⟩,
                Connections.uninterrupted_stop hforward (by simp [hreset]), hempty]
            | false =>
              rw [if_neg (by simp)] at hround
              rw [complete_of_next hround rfl hsends hcarries,
                Connections.uninterrupted_next hforward hsent hreset]
              exact ih hlater

/-- The outcomes that belong to the objects of a receive. -/
def outcomes (net : ℕ → RequestOutcome) (received : SafeReceiveData) : List RequestOutcome :=
  (List.range received.getObjectsNum).map net

/-- Every record of a receive is decoded, in order, so that the manager is as after all of them,
and every packet that becomes complete is handed to the socket of its connection. -/
def NothingDropped (layers : QVPNLayersSettings) (client : Fd) (net : ℕ → RequestOutcome)
    (received : SafeReceiveData) (records : List (List UByte)) (s : RequestState) : Prop :=
  ∃ packets m result s' sends, decodeRecords layers s.manager records = .ok (packets, m) ∧
    vpnRequestLoopIteration layers client net received s = .ok (result, s') ∧
    s'.decoded = s.decoded ++ records ∧ s'.manager = m ∧
    s'.connections.sends = s.connections.sends ++ sends ∧
    List.Forall₂ s'.connections.Carries packets.reduceOption sends

/-- One iteration of the request loop drops nothing exactly when all records can be decoded and
nothing interrupts the loop before the last one. -/
theorem nothingDropped_iff (layers : QVPNLayersSettings) (client : Fd) (net : ℕ → RequestOutcome)
    (received : SafeReceiveData) (records : List (List UByte)) (s : RequestState)
    (hrecords : received.objects = .ok records) :
    NothingDropped layers client net received records s ↔
      ∃ packets m, decodeRecords layers s.manager records = .ok (packets, m) ∧
        Connections.Uninterrupted client (packets.zip (outcomes net received)) s.connections := by
  have hlength : records.length = (outcomes net received).length := by
    have h := mapM_length hrecords
    rw [h, outcomes, List.length_map]
  have hfst : (records.zip (outcomes net received)).map Prod.fst = records :=
    List.map_fst_zip hlength.le
  have hsnd : (records.zip (outcomes net received)).map Prod.snd = outcomes net received :=
    List.map_snd_zip hlength.ge
  have hloop : vpnRequestLoopIteration layers client net received s =
      requestRecords layers client (records.zip (outcomes net received)) s :=
    requestLoop_eq hrecords s
  constructor
  · rintro ⟨packets, m, result, s', sends, hdecode, hrun, hrest⟩
    refine ⟨packets, m, hdecode, ?_⟩
    rw [← hsnd, ← complete_iff (by rw [hfst]; exact hdecode)]
    rw [hloop] at hrun
    exact ⟨result, s', sends, hrun, by rw [hfst]; exact hrest⟩
  · rintro ⟨packets, m, hdecode, huninterrupted⟩
    rw [← hsnd, ← complete_iff (by rw [hfst]; exact hdecode)] at huninterrupted
    obtain ⟨result, s', sends, hrun, hrest⟩ := huninterrupted
    rw [hfst] at hrest
    exact ⟨packets, m, result, s', sends, hdecode, hloop.trans hrun, hrest⟩

/-- What the operating system answers when everything succeeds. -/
def connected : RequestOutcome := ⟨⟨some 7, some 8, true, true, ⟨[192, 168, 0, 1]⟩⟩, true⟩

/-- A server that has received nothing. -/
def fresh : RequestState :=
  ⟨initial .increasing, [], ⟨.default, fun _ => none, fun _ => none, []⟩⟩

/-- The record of the query. -/
def queryRecord : List UByte :=
  [23, 3, 3, 0, 25, 0, 0, 0, 0, 20, 4, 17, 10, 0, 0, 2, 15, 160, 8, 8, 8, 8, 0, 53, 0, 2, 0, 10, 7, 9]

/-- Two queries in one receive both go out. -/
theorem nothingDropped_iff_twoQueries :
    NothingDropped defaultLayers 5 (fun _ => connected)
      ⟨[(0, 30), (30, 60)], queryRecord ++ queryRecord⟩ [queryRecord, queryRecord] fresh :=
  (nothingDropped_iff defaultLayers 5 (fun _ => connected)
    ⟨[(0, 30), (30, 60)], queryRecord ++ queryRecord⟩ [queryRecord, queryRecord] fresh rfl).mpr
    ⟨[some query, some query], _, rfl, by
      have hfirst : ∃ key object c, fresh.connections.forwardPacket connected.connect 5 query =
          .ok (some (key, object), c) ∧ object.isResetConnectionPacket = .ok false ∧
          ∃ sent c', c.forwardPacket connected.connect 5 query = .ok (some sent, c') :=
        ⟨_, _, _, rfl, rfl, _, _, rfl⟩
      obtain ⟨key, object, c, hforward, hreset, hsecond⟩ := hfirst
      refine ⟨fun p hp => ?_, fun _ => ⟨query, key, object, c, rfl, hforward, rfl, hreset, ?_⟩⟩
      · cases hp
        exact ⟨_, c, hforward⟩
      · refine ⟨fun p hp => ?_, fun hne => absurd rfl hne⟩
        cases hp
        exact hsecond⟩

/-- The first fragment of a packet of four bytes. -/
def firstFragmentRecord : List UByte := [23, 3, 3, 0, 7, 1, 0, 0, 0, 4, 10, 20]

/-- A query that shares its receive with the fragment of another packet is never decoded. -/
theorem fragmentAndQuery_dropped :
    SafeReceiveData.safeRecv .SFR_NO_DATA .empty
      [firstFragmentRecord ++ queryRecord.take 6, queryRecord.drop 6] =
      .ok (.SFR_FULL_DATA, ⟨[(0, 12), (12, 42)], firstFragmentRecord ++ queryRecord⟩, []) ∧
    SafeReceiveData.objects ⟨[(0, 12), (12, 42)], firstFragmentRecord ++ queryRecord⟩ =
      .ok [firstFragmentRecord, queryRecord] ∧
    ¬ NothingDropped defaultLayers 5 (fun _ => connected)
      ⟨[(0, 12), (12, 42)], firstFragmentRecord ++ queryRecord⟩
      [firstFragmentRecord, queryRecord] fresh := by
  refine ⟨rfl, rfl, ?_⟩
  rintro ⟨packets, m, result, s', sends, _, hrun, hdecoded, _⟩
  have hone : (vpnRequestLoopIteration defaultLayers 5 (fun _ => connected)
      ⟨[(0, 12), (12, 42)], firstFragmentRecord ++ queryRecord⟩ fresh).map
        (fun r => r.2.decoded) = .ok [firstFragmentRecord] := rfl
  rw [hrun] at hone
  have hfalse := (Except.ok.inj hone).symm.trans hdecoded
  exact absurd hfalse (by decide)

end RequestState

end QVPN
