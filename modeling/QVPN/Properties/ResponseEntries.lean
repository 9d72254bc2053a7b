import QVPN.Properties.ProcessSocket

/-!
# The entries of a client's thread

While the thread of a client hands over packets, entries come into the table of response sockets for
the keys of these packets only, and they lead to the client. The socket of an entry is the one that
the packets with this key go out on. An entry goes out of the table only with a packet that resets
its connection.
-/

namespace QVPN

open Memory RequestState

/-- The request loop takes down the connection of a packet that says that it ends. -/
def ForwardedPacket.Resets (send : ForwardedPacket) : Prop :=
  ∃ strategy object strategy', generateSenderPacket strategy send.packet.create send.key
    send.packet.data = .ok (object, strategy') ∧ send.bytes = object.bytes ∧
      object.isResetConnectionPacket = .ok true

/-- What handing over packets does to the table of response sockets. -/
structure Connections.Listens (client : Fd) (c c' : Connections) (sends : List ForwardedPacket) :
    Prop where
  sends_eq : c'.sends = c.sends ++ sends
  entries : ∀ key fd socket, c'.responseSockets key = some (fd, socket) →
    c.responseSockets key = some (fd, socket) ∨
      fd = client ∧ ∃ send ∈ sends, send.key = key ∧ send.rawSocket = socket.rawSocket
  kept : ∀ key, ((c.sockMap key).isSome → (c.responseSockets key).isSome) →
    (c'.sockMap key).isSome → (c'.responseSockets key).isSome ∨
      ∃ send ∈ sends, send.key = key ∧ send.Resets

namespace Connections.Listens

variable {client : Fd} {c c' c'' : Connections} {sends later : List ForwardedPacket}

theorem refl (client : Fd) (c : Connections) : Listens client c c [] where
  sends_eq := (List.append_nil _).symm
  entries := fun _ _ _ h => Or.inl h
  kept := fun _ hlistened hheld => Or.inl (hlistened hheld)

theorem trans (h : Listens client c c' sends) (h' : Listens client c' c'' later) :
    Listens client c c'' (sends ++ later) where
  sends_eq := by rw [h'.sends_eq, h.sends_eq, List.append_assoc]
  entries := by
    intro key fd socket hentry
    obtain hmiddle | ⟨hfd, send, hsend, hkey⟩ := h'.entries key fd socket hentry
    · apply (h.entries key fd socket hmiddle).imp_right
      rintro ⟨hfd, send, hsend, hkey⟩
      exact ⟨hfd, send, List.mem_append_left _ hsend, hkey⟩
    · exact Or.inr ⟨hfd, send, List.mem_append_right _ hsend, hkey⟩
  kept := by
    intro key hlistened hheld
    by_cases hreset : ∃ send ∈ sends, send.key = key ∧ send.Resets
    · obtain ⟨send, hsend, hresets⟩ := hreset
      exact Or.inr ⟨send, List.mem_append_left _ hsend, hresets⟩
    · have hmiddle (hheld : (c'.sockMap key).isSome) : (c'.responseSockets key).isSome :=
        (h.kept key hlistened hheld).resolve_right hreset
      apply (h'.kept key hmiddle hheld).imp_right
      rintro ⟨send, hsend, hresets⟩
      exact ⟨send, List.mem_append_right _ hsend, hresets⟩

/-- A packet that resets its connection takes the entry of the connection with it. -/
theorem drop {send : ForwardedPacket} (h : Listens client c c' [send]) (hresets : send.Resets) :
    Listens client c { c' with
      responseSockets := dropResponseSocket c'.responseSockets send.key } [send] where
  sends_eq := h.sends_eq
  entries := fun key fd socket hentry => h.entries key fd socket (dropResponseSocket_of_some hentry)
  kept := by
    intro key hlistened hheld
    by_cases hkey : key = send.key
    · exact Or.inr ⟨send, List.mem_singleton_self _, hkey.symm, hresets⟩
    · dsimp only [dropResponseSocket]
      rw [Function.update_of_ne hkey]
      exact h.kept key hlistened hheld

end Connections.Listens

section Setup

variable {net : ConnectOutcome} {responseSocket fd : Fd} {key key' newKey : QVPNServerSocketData}
  {sockMap sockMap' : SockMap} {responseSockets responseSockets' : ResponseSockets}
  {socket : PackedSocket} (h : connectToServerImpl net responseSocket key sockMap responseSockets =
    (newKey, sockMap', responseSockets'))
include h

/-- Setting up a connection changes nothing, or enters a socket at the key that it comes to. -/
theorem connectToServerImpl_at :
    (sockMap' = sockMap ∧ responseSockets' = responseSockets) ∨
      ∃ socket, sockMap' = Function.update sockMap newKey (some socket) ∧
        responseSockets' = addToResponseSocketMap responseSockets responseSocket socket newKey := by
  unfold connectToServerImpl at h
  split at h
  · cases h
    exact Or.inl ⟨rfl, rfl⟩
  · split at h
    · cases h
      exact Or.inl ⟨rfl, rfl⟩
    · dsimp only at h
      split at h
      · cases h
        exact Or.inl ⟨rfl, rfl⟩
      · split at h
        · cases h
          exact Or.inl ⟨rfl, rfl⟩
        · cases h
          exact Or.inr ⟨_, rfl, rfl⟩

/-- An entry that comes into the table is at this key, and the client finds its socket there. -/
theorem connectToServerImpl_entry (hentry : responseSockets' key' = some (fd, socket)) :
    responseSockets key' = some (fd, socket) ∨
      fd = responseSocket ∧ key' = newKey ∧ sockMap' newKey = some socket := by
  obtain ⟨-, rfl⟩ | ⟨new, rfl, rfl⟩ := connectToServerImpl_at h
  · exact Or.inl hentry
  · rw [addToResponseSocketMap] at hentry
    split at hentry
    · rw [Function.update_apply] at hentry
      split at hentry
      · next hkey =>
        cases hentry
        exact Or.inr ⟨rfl, hkey, Function.update_self ..⟩
      · exact Or.inl hentry
    · exact Or.inl hentry

/-- A key that is listened to if it has a socket is listened to afterwards. -/
theorem connectToServerImpl_kept
    (hlistened : (sockMap key').isSome → (responseSockets key').isSome)
    (hheld : (sockMap' key').isSome) : (responseSockets' key').isSome := by
  obtain ⟨rfl, rfl⟩ | ⟨new, rfl, rfl⟩ := connectToServerImpl_at h
  · exact hlistened hheld
  · apply addToResponseSocketMap_isSome
    by_cases hkey : key' = newKey
    · exact Or.inl hkey
    · rw [Function.update_of_ne hkey] at hheld
      exact Or.inr (hlistened hheld)

end Setup

section Rounds

variable {client : Fd} {c c' : Connections} {packet : QTunnelData}

/-- A packet without a socket changes no entry. -/
theorem Connections.listens_noSocket {net : ConnectOutcome}
    (h : c.forwardPacket net client packet = .ok (none, c')) : c.Listens client c' [] := by
  unfold forwardPacket connectIfNotToServer at h
  generalize hconnect : connectToServerImpl net client packet.key c.sockMap c.responseSockets =
    connected at h
  obtain ⟨key, sockMap, responseSockets⟩ := connected
  dsimp only at h
  cases hsocket : sockMap key with
  | some socket =>
    rw [hsocket] at h
    obtain ⟨_, -, h⟩ := bind_eq_ok_iff.mp h
    obtain ⟨_, -, h⟩ := bind_eq_ok_iff.mp h
    cases Except.ok.inj h
  | none =>
    rw [hsocket] at h
    cases Except.ok.inj h
    refine ⟨(List.append_nil _).symm, ?_, ?_⟩
    · intro key' fd socket hentry
      obtain hold | ⟨-, -, hnew⟩ := connectToServerImpl_entry hconnect hentry
      · exact Or.inl hold
      · rw [hsocket] at hnew
        cases hnew
    · intro key' hlistened hheld
      exact Or.inl (connectToServerImpl_kept hconnect hlistened hheld)

/-- A packet that is handed over leaves an entry for its key. -/
theorem Connections.listens_handed {net : ConnectOutcome} {key : QVPNServerSocketData}
    {object : FullPacketObject}
    (h : c.forwardPacket net client packet = .ok (some (key, object), c')) :
    ∃ send, c.Listens client c' [send] ∧ send.key = key ∧
      (object.isResetConnectionPacket = .ok true → send.Resets) := by
  unfold forwardPacket connectIfNotToServer at h
  generalize hconnect : connectToServerImpl net client packet.key c.sockMap c.responseSockets =
    connected at h
  obtain ⟨key', sockMap, responseSockets⟩ := connected
  dsimp only at h
  cases hsocket : sockMap key' with
  | none =>
    rw [hsocket] at h
    cases Except.ok.inj h
  | some socket =>
    rw [hsocket] at h
    obtain ⟨⟨object', strategy⟩, hgenerate, h⟩ := bind_eq_ok_iff.mp h
    obtain ⟨_, -, h⟩ := bind_eq_ok_iff.mp h
    cases Except.ok.inj h
    refine ⟨_, ⟨rfl, ?_, ?_⟩, rfl, fun hreset => ⟨_, _, _, hgenerate, rfl, hreset⟩⟩
    · intro other fd socket' hentry
      obtain hold | ⟨rfl, rfl, hnew⟩ := connectToServerImpl_entry hconnect hentry
      · exact Or.inl hold
      · rw [hsocket] at hnew
        cases hnew
        exact Or.inr ⟨rfl, _, List.mem_singleton_self _, rfl, rfl⟩
    · intro other hlistened hheld
      exact Or.inl (connectToServerImpl_kept hconnect hlistened hheld)

variable {layers : QVPNLayersSettings}

/-- What a round does to the entries. -/
theorem requestRound_listens {net : RequestOutcome} {s s' : RequestState} {record : List UByte}
    {exit : Option Bool} (h : requestRound layers client net s record = .ok (exit, s')) :
    ∃ sends, s.connections.Listens client s'.connections sends := by
  unfold requestRound at h
  obtain ⟨⟨packet, manager⟩, -, h⟩ := bind_eq_ok_iff.mp h
  cases packet with
  | none =>
    cases Except.ok.inj h
    exact ⟨[], .refl client _⟩
  | some packet =>
    obtain ⟨⟨forwarded, c⟩, hforward, h⟩ := bind_eq_ok_iff.mp h
    cases forwarded with
    | none =>
      cases Except.ok.inj h
      exact ⟨[], Connections.listens_noSocket hforward⟩
    | some sent =>
      obtain ⟨key, object⟩ := sent
      obtain ⟨send, hlistens, rfl, hresets⟩ := Connections.listens_handed hforward
      refine ⟨[send], ?_⟩
      dsimp only at h
      split at h
      · cases Except.ok.inj h
        exact hlistens
      · obtain ⟨reset, hreset, h⟩ := bind_eq_ok_iff.mp h
        cases reset with
        | false =>
          cases Except.ok.inj h
          exact hlistens
        | true =>
          cases Except.ok.inj h
          exact hlistens.drop (hresets hreset)

/-- What the thread does to the entries. -/
theorem handleRecords_listens {items : List (List UByte × RequestOutcome)} {s s' : RequestState}
    {goes : Bool} (h : handleRecords layers client items s = .ok (goes, s')) :
    ∃ sends, s.connections.Listens client s'.connections sends := by
  induction items generalizing s with
  | nil =>
    cases Except.ok.inj h
    exact ⟨[], .refl client _⟩
  | cons item items ih =>
    obtain ⟨⟨exit, s₁⟩, hround, h⟩ := bind_eq_ok_iff.mp h
    obtain ⟨sends, hlistens⟩ := requestRound_listens hround
    dsimp only at h
    split at h
    · cases Except.ok.inj h
      exact ⟨sends, hlistens⟩
    · obtain ⟨later, hlater⟩ := ih h
      exact ⟨sends ++ later, hlistens.trans hlater⟩

end Rounds

end QVPN
