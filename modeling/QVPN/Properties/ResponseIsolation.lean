import QVPN.Lib.Run
import QVPN.Properties.NatRoundTrip

/-!
# The client that a response goes to

The response loop sends what a raw socket received to the descriptor that stands beside the raw
socket in the map of response sockets. When the request loop of a client ends, the descriptor of
the client is closed, and the client's entries stay in the map. The operating system gives out
the number of a closed descriptor again.

As long as no number that the map still holds is given out for something else, every response
goes to the client for whose connection the raw socket was opened, whatever keys the clients
use and however their loops interleave.
-/

namespace QVPN

open BigEndian Memory QVPNLayersSettings QVPNPacketManager

variable {Client : Type}

/-- What an open descriptor is: the tunnel of a client, or a socket of one of its connections. -/
inductive Descriptor (Client : Type) where
  | tunnel (c : Client)
  | remote (c : Client)
  | shadow (c : Client)
  deriving DecidableEq

inductive TunnelPhase where
  | authorizing
  | running
  | stopped
  deriving DecidableEq

/-- The socket of a client, and how far its thread is. -/
structure ClientTunnel where
  socket : Fd
  phase : TunnelPhase
  deriving DecidableEq

/-- The thread that listens to the raw sockets. It copies an entry of the map before it waits for
a packet, and works on the copy. -/
inductive ResponseListener (Client : Type) where
  | idle
  | waiting (key : QVPNServerSocketData) (responseSocket : Fd) (socket : PackedSocket)
  | sending (opener : Option (Descriptor Client)) (responseSocket : Fd)
      (records : List (List UByte)) (key : QVPNServerSocketData) (reset : Bool)

/-- A record on its way: what the raw socket was that received the packet, and what the
descriptor is that the record was written to. -/
structure Delivery (Client : Type) where
  opener : Option (Descriptor Client)
  receiver : Descriptor Client
  record : List UByte
  deriving DecidableEq

/-- The open descriptors, the tunnels with their connections, the shared map, its listener, and
what was written to descriptors so far. -/
structure Routing (Client : Type) where
  opened : Fd → Option (Descriptor Client)
  tunnel : Client → Option ClientTunnel
  sockMap : Client → SockMap
  responseSockets : ResponseSockets
  listener : ResponseListener Client
  sent : List (Delivery Client)

inductive RoutingAction (Client : Type) where
  | accept (c : Client) (socket : Fd)
  | authorize (c : Client) (success : Bool)
  | connect (c : Client) (key : QVPNServerSocketData) (net : ConnectOutcome)
  | reset (c : Client) (key : QVPNServerSocketData)
  | close (c : Client)
  | take (key : QVPNServerSocketData)
  | skip
  | receive (m : QVPNPacketManager) (sent : ℕ → Bool) (mem : List UByte) (size : ℕ)
  | send

namespace ConnectOutcome

/-- New descriptors have numbers that are not in use. -/
def Possible (net : ConnectOutcome) (opened : Fd → Option (Descriptor Client)) : Prop :=
  (∀ fd ∈ net.rawSocket, opened fd = none ∧ net.shadowSocket ≠ some fd) ∧
    ∀ fd ∈ net.shadowSocket, opened fd = none

instance (net : ConnectOutcome) (opened : Fd → Option (Descriptor Client)) :
    Decidable (net.Possible opened) := by
  unfold Possible
  infer_instance

/-- The descriptors after a connection set-up, whether or not the set-up succeeds. -/
def openFor (net : ConnectOutcome) (c : Client) (opened : Fd → Option (Descriptor Client))
    (fd : Fd) : Option (Descriptor Client) :=
  if net.rawSocket = some fd then some (.remote c)
  else if net.shadowSocket = some fd then some (.shadow c)
  else opened fd

/-- What is open stays what it is. -/
theorem Possible.openFor_of_some {net : ConnectOutcome} {c : Client}
    {opened : Fd → Option (Descriptor Client)} {fd : Fd} {d : Descriptor Client}
    (h : net.Possible opened) (hfd : opened fd = some d) : net.openFor c opened fd = some d := by
  have hraw : net.rawSocket ≠ some fd := by
    intro hraw
    rw [(h.1 fd hraw).1] at hfd
    cases hfd
  have hshadow : net.shadowSocket ≠ some fd := by
    intro hshadow
    rw [h.2 fd hshadow] at hfd
    cases hfd
  rw [openFor, if_neg hraw, if_neg hshadow, hfd]

theorem openFor_of_ne (net : ConnectOutcome) {c : Client} {opened : Fd → Option (Descriptor Client)}
    {fd : Fd} (hraw : net.rawSocket ≠ some fd) (hshadow : net.shadowSocket ≠ some fd) :
    net.openFor c opened fd = opened fd := by
  rw [openFor, if_neg hraw, if_neg hshadow]

end ConnectOutcome

namespace Routing

/-- Nothing is open. -/
def start (Client : Type) : Routing Client where
  opened := fun _ => none
  tunnel := fun _ => none
  sockMap := fun _ _ => none
  responseSockets := fun _ => none
  listener := .idle
  sent := []

section Actions

variable [DecidableEq Client]

/-- The end of a client's thread: its own map goes, its entries in the shared map stay. -/
def closeTunnel (s : Routing Client) (c : Client) (socket : Fd) : Routing Client :=
  { s with
    opened := Function.update s.opened socket none
    tunnel := Function.update s.tunnel c none
    sockMap := Function.update s.sockMap c fun _ => none }

/-- The thread stops when it finds no socket for the packet. -/
def afterConnect (s : Routing Client) (c : Client) (socket : Fd) (key : QVPNServerSocketData)
    (net : ConnectOutcome) : Routing Client :=
  let (key, sockMap, responseSockets) :=
    connectToServerImpl net socket key (s.sockMap c) s.responseSockets
  { s with
    opened := net.openFor c s.opened
    tunnel := if (sockMap key).isNone then Function.update s.tunnel c (some ⟨socket, .stopped⟩)
      else s.tunnel
    sockMap := Function.update s.sockMap c sockMap
    responseSockets }

/-- One action of the system. What cannot happen in a state leaves it as it is. -/
def step (s : Routing Client) : RoutingAction Client → Except Fault (Routing Client)
  | .accept c socket =>
    if s.opened socket = none ∧ s.tunnel c = none then .ok { s with
      opened := Function.update s.opened socket (some (.tunnel c))
      tunnel := Function.update s.tunnel c (some ⟨socket, .authorizing⟩) }
    else .ok s
  | .authorize c success =>
    match s.tunnel c with
    | some ⟨socket, .authorizing⟩ =>
      if success then .ok { s with tunnel := Function.update s.tunnel c (some ⟨socket, .running⟩) }
      else .ok (s.closeTunnel c socket)
    | _ => .ok s
  | .connect c key net =>
    match s.tunnel c with
    | some ⟨socket, .running⟩ =>
      if net.Possible s.opened then .ok (s.afterConnect c socket key net) else .ok s
    | _ => .ok s
  | .reset c key =>
    match s.tunnel c with
    | some ⟨_, .running⟩ =>
      .ok { s with responseSockets := dropResponseSocket s.responseSockets key }
    | _ => .ok s
  | .close c =>
    match s.tunnel c with
    | some ⟨socket, .stopped⟩ => .ok (s.closeTunnel c socket)
    | _ => .ok s
  | .take key =>
    match s.listener, s.responseSockets key with
    | .idle, some (responseSocket, socket) =>
      .ok { s with listener := .waiting key responseSocket socket }
    | _, _ => .ok s
  | .skip =>
    match s.listener with
    | .waiting _ _ _ => .ok { s with listener := .idle }
    | _ => .ok s
  | .receive m sent mem size =>
    match s.listener with
    | .waiting key responseSocket socket => do
      let (records, reset, _) ← vpnResponseLoopIteration defaultLayers m sent key mem size
      return { s with
        listener := .sending (s.opened socket.rawSocket) responseSocket records key reset }
    | _ => .ok s
  | .send =>
    match s.listener with
    | .sending opener responseSocket (record :: records) key reset => .ok { s with
      listener := .sending opener responseSocket records key reset
      sent := s.sent ++ (s.opened responseSocket).toList.map fun receiver =>
        ⟨opener, receiver, record⟩ }
    | .sending _ _ [] key reset => .ok { s with
      listener := .idle
      responseSockets := if reset then dropResponseSocket s.responseSockets key
        else s.responseSockets }
    | _ => .ok s

end Actions

/-- Responses of a raw socket go to a descriptor: as an entry of the map says, the copy of one, or
the packet that is being sent. -/
inductive Routes (s : Routing Client) (fd : Fd) : Option (Descriptor Client) → Prop
  | entry {key : QVPNServerSocketData} {socket : PackedSocket}
      (h : s.responseSockets key = some (fd, socket)) : Routes s fd (s.opened socket.rawSocket)
  | waiting {key : QVPNServerSocketData} {socket : PackedSocket}
      (h : s.listener = .waiting key fd socket) : Routes s fd (s.opened socket.rawSocket)
  | sending {opener : Option (Descriptor Client)} {records : List (List UByte)}
      {key : QVPNServerSocketData} {reset : Bool}
      (h : s.listener = .sending opener fd records key reset) : Routes s fd opener

/-- While the listener holds nothing, routes are entries. -/
theorem Routes.exists_entry {s : Routing Client} {fd : Fd} {opener : Option (Descriptor Client)}
    (h : s.Routes fd opener) (hidle : s.listener = .idle) :
    ∃ key socket, s.responseSockets key = some (fd, socket) := by
  cases h with
  | entry hentry => exact ⟨_, _, hentry⟩
  | waiting hwaiting =>
    rw [hidle] at hwaiting
    cases hwaiting
  | sending hsending =>
    rw [hidle] at hsending
    cases hsending

/-- No number that responses of a client still go to is given out for anything else than a tunnel
of this client. -/
def Guard (s : Routing Client) : RoutingAction Client → Prop
  | .accept c socket => ∀ opener, s.Routes socket opener → opener = some (.remote c)
  | .connect _ _ net => ∀ fd, net.rawSocket = some fd ∨ net.shadowSocket = some fd →
    ∀ opener, ¬ s.Routes fd opener
  | _ => True

/-- Every record of a response went to the tunnel of the client that the raw socket was opened
for. -/
def Isolated (s : Routing Client) : Prop :=
  ∀ e ∈ s.sent, ∃ c, e.opener = some (.remote c) ∧ e.receiver = .tunnel c

/-- Responses go to the tunnel of their client or, when it is closed, nowhere. -/
structure Inv (s : Routing Client) : Prop where
  routes : ∀ fd opener, s.Routes fd opener → ∃ c, opener = some (.remote c) ∧
    (s.opened fd = none ∨ s.opened fd = some (.tunnel c))
  tunnels : ∀ c t, s.tunnel c = some t → s.opened t.socket = some (.tunnel c)
  isolated : s.Isolated

theorem inv_start : (start Client).Inv where
  routes := by
    intro fd opener h
    cases h with
    | entry h => cases h
    | waiting h => cases h
    | sending h => cases h
  tunnels := by
    intro c t h
    cases h
  isolated := by simp [Isolated, start]

/-- Where the raw sockets stay open and the map stays, no route is new. -/
theorem Inv.routes_of_frame {s s' : Routing Client} {fd : Fd} {opener : Option (Descriptor Client)}
    (h : s.Inv) (hroute : s'.Routes fd opener)
    (hentries : s'.responseSockets = s.responseSockets) (hlistener : s'.listener = s.listener)
    (hopened : ∀ fd c, s.opened fd = some (.remote c) → s'.opened fd = some (.remote c)) :
    s.Routes fd opener := by
  have hkeep {rawSocket : Fd} (hold : s.Routes fd (s.opened rawSocket)) :
      s.Routes fd (s'.opened rawSocket) := by
    obtain ⟨c, hc, -⟩ := h.routes fd _ hold
    rwa [hopened rawSocket c hc, ← hc]
  cases hroute with
  | entry hentry => exact hkeep (.entry (hentries ▸ hentry))
  | waiting hwaiting => exact hkeep (.waiting (hlistener ▸ hwaiting))
  | sending hsending => exact .sending (hlistener ▸ hsending)

/-- A descriptor that is not open is no raw socket. -/
theorem ne_of_remote {opened : Fd → Option (Descriptor Client)} {fd socket : Fd} {c : Client}
    (hremote : opened fd = some (.remote c)) (hsocket : opened socket = none) : fd ≠ socket := by
  rintro rfl
  rw [hsocket] at hremote
  cases hremote

/-- Where the same descriptors stay open, an entry is one that was there or it belongs to one
client. -/
theorem Inv.of_entries {s s' : Routing Client} (h : s.Inv) (hopened : s'.opened = s.opened)
    (hlistener : s'.listener = s.listener) (hsent : s'.sent = s.sent)
    (htunnel : ∀ c t, s'.tunnel c = some t → ∃ t', s.tunnel c = some t' ∧ t'.socket = t.socket)
    (hentries : ∀ key fd socket, s'.responseSockets key = some (fd, socket) →
      s.responseSockets key = some (fd, socket) ∨
        ∃ c, s.opened socket.rawSocket = some (.remote c) ∧ s.opened fd = some (.tunnel c)) :
    s'.Inv := by
  refine ⟨?_, ?_, ?_⟩
  · intro fd opener hroute
    rw [hopened]
    cases hroute with
    | entry hentry =>
      rw [hopened]
      rcases hentries _ _ _ hentry with hold | ⟨c, hremote, htunnel⟩
      · exact h.routes fd _ (.entry hold)
      · exact ⟨c, hremote, Or.inr htunnel⟩
    | waiting hwaiting =>
      rw [hopened]
      exact h.routes fd _ (.waiting (hlistener ▸ hwaiting))
    | sending hsending => exact h.routes fd _ (.sending (hlistener ▸ hsending))
  · intro c t ht
    obtain ⟨t', ht', hsocket⟩ := htunnel c t ht
    rw [hopened, ← hsocket]
    exact h.tunnels c t' ht'
  · rw [Isolated, hsent]
    exact h.isolated

/-- New descriptors are opened under numbers that no response goes to. -/
theorem Inv.openFor {s s' : Routing Client} {c : Client} {key : QVPNServerSocketData}
    {net : ConnectOutcome} (h : s.Inv) (hguard : s.Guard (.connect c key net))
    (hpossible : net.Possible s.opened) (hs' : s' = { s with opened := net.openFor c s.opened }) :
    s'.Inv := by
  subst hs'
  refine ⟨?_, ?_, h.isolated⟩
  · intro fd opener hroute
    have hold : s.Routes fd opener := h.routes_of_frame hroute rfl rfl fun fd _ hremote =>
      hpossible.openFor_of_some hremote
    obtain ⟨c', hopener, hfd⟩ := h.routes fd opener hold
    refine ⟨c', hopener, ?_⟩
    dsimp only
    rw [net.openFor_of_ne (fun hraw => hguard fd (Or.inl hraw) opener hold)
      (fun hshadow => hguard fd (Or.inr hshadow) opener hold)]
    exact hfd
  · intro c' t ht
    exact hpossible.openFor_of_some (h.tunnels c' t ht)

/-- Dropping an entry adds none. -/
theorem Inv.drop {s s' : Routing Client} {key : QVPNServerSocketData} (h : s.Inv)
    (hs' : s' = { s with responseSockets := dropResponseSocket s.responseSockets key }) :
    s'.Inv := by
  subst hs'
  exact h.of_entries rfl rfl rfl (fun _ t ht => ⟨t, ht, rfl⟩)
    fun _ _ _ hentry => Or.inl (dropResponseSocket_of_some hentry)

/-- What the listener holds comes from an entry. -/
theorem Inv.of_listener {s s' : Routing Client} (h : s.Inv) (hopened : s'.opened = s.opened)
    (htunnel : s'.tunnel = s.tunnel) (hentries : s'.responseSockets = s.responseSockets)
    (hisolated : s'.Isolated)
    (hwaiting : ∀ key fd socket, s'.listener = .waiting key fd socket →
      s.Routes fd (s.opened socket.rawSocket))
    (hsending : ∀ opener fd records key reset, s'.listener = .sending opener fd records key reset →
      s.Routes fd opener) : s'.Inv := by
  refine ⟨?_, ?_, ?_⟩
  · intro fd opener hroute
    rw [hopened]
    cases hroute with
    | entry hentry =>
      rw [hopened]
      exact h.routes fd _ (.entry (hentries ▸ hentry))
    | waiting hlistener =>
      rw [hopened]
      exact h.routes fd _ (hwaiting _ _ _ hlistener)
    | sending hlistener => exact h.routes fd _ (hsending _ _ _ _ _ hlistener)
  · rw [htunnel, hopened]
    exact h.tunnels
  · exact hisolated

variable [DecidableEq Client]

/-- A descriptor is opened for a client whose responses are the only ones that can go to it. -/
theorem Inv.accept {s s' : Routing Client} {c : Client} {socket : Fd} (h : s.Inv)
    (hguard : s.Guard (.accept c socket)) (hstep : s.step (.accept c socket) = .ok s') : s'.Inv := by
  rw [step] at hstep
  split at hstep
  case isFalse => cases Except.ok.inj hstep; exact h
  case isTrue hfree =>
    cases Except.ok.inj hstep
    have hold {fd : Fd} {opener : Option (Descriptor Client)}
        (hroute : Routes { s with
          opened := Function.update s.opened socket (some (.tunnel c))
          tunnel := Function.update s.tunnel c (some ⟨socket, .authorizing⟩) } fd opener) :
        s.Routes fd opener := by
      apply h.routes_of_frame hroute rfl rfl
      intro fd c hremote
      exact (Function.update_of_ne (ne_of_remote hremote hfree.1) _ _).trans hremote
    refine ⟨?_, ?_, h.isolated⟩
    · intro fd opener hroute
      by_cases hfd : fd = socket
      · subst hfd
        exact ⟨c, hguard opener (hold hroute), Or.inr (Function.update_self ..)⟩
      · dsimp only
        rw [Function.update_of_ne hfd]
        exact h.routes fd opener (hold hroute)
    · intro other t ht
      dsimp only at ht ⊢
      by_cases hother : other = c
      · subst hother
        rw [Function.update_self] at ht
        cases ht
        exact Function.update_self ..
      · rw [Function.update_of_ne hother] at ht
        have hopen := h.tunnels other t ht
        have hne : t.socket ≠ socket := by
          intro heq
          rw [heq, hfree.1] at hopen
          cases hopen
        rw [Function.update_of_ne hne]
        exact hopen

/-- Closing the descriptor of a client takes responses nowhere else. -/
theorem Inv.closeTunnel {s : Routing Client} {c : Client} {t : ClientTunnel} (h : s.Inv)
    (ht : s.tunnel c = some t) : (s.closeTunnel c t.socket).Inv := by
  have hopen := h.tunnels c t ht
  refine ⟨?_, ?_, h.isolated⟩
  · intro fd opener hroute
    have hold : s.Routes fd opener := by
      apply h.routes_of_frame hroute rfl rfl
      intro fd other hremote
      have hne : fd ≠ t.socket := by
        intro heq
        rw [heq, hopen] at hremote
        cases hremote
      exact (Function.update_of_ne hne _ _).trans hremote
    obtain ⟨other, hopener, hfd⟩ := h.routes fd opener hold
    refine ⟨other, hopener, ?_⟩
    by_cases heq : fd = t.socket
    · rw [heq]
      exact Or.inl (Function.update_self ..)
    · rwa [show (s.closeTunnel c t.socket).opened fd = s.opened fd from
        Function.update_of_ne heq _ _]
  · intro other t' ht'
    dsimp only [Routing.closeTunnel] at ht' ⊢
    by_cases hother : other = c
    · rw [hother, Function.update_self] at ht'
      cases ht'
    · rw [Function.update_of_ne hother] at ht'
      have hopen' := h.tunnels other t' ht'
      have hne : t'.socket ≠ t.socket := by
        intro heq
        rw [heq, hopen] at hopen'
        cases hopen'
        exact hother rfl
      rwa [Function.update_of_ne hne]

/-- A change of the phase keeps every socket. -/
theorem exists_of_setPhase {tunnel : Client → Option ClientTunnel} {c c' : Client}
    {t t' : ClientTunnel} {phase : TunnelPhase} (ht : tunnel c = some t)
    (h : Function.update tunnel c (some ⟨t.socket, phase⟩) c' = some t') :
    ∃ t₀, tunnel c' = some t₀ ∧ t₀.socket = t'.socket := by
  by_cases hc : c' = c
  · subst hc
    rw [Function.update_self] at h
    cases h
    exact ⟨t, ht, rfl⟩
  · rw [Function.update_of_ne hc] at h
    exact ⟨t', h, rfl⟩

theorem Inv.authorize {s s' : Routing Client} {c : Client} {success : Bool} (h : s.Inv)
    (hstep : s.step (.authorize c success) = .ok s') : s'.Inv := by
  rw [step] at hstep
  split at hstep
  case h_1 socket ht =>
    split at hstep
    · cases Except.ok.inj hstep
      exact h.of_entries rfl rfl rfl (fun _ _ => exists_of_setPhase ht)
        fun _ _ _ hentry => Or.inl hentry
    · cases Except.ok.inj hstep
      exact h.closeTunnel ht
  case h_2 => cases Except.ok.inj hstep; exact h

theorem Inv.close {s s' : Routing Client} {c : Client} (h : s.Inv)
    (hstep : s.step (.close c) = .ok s') : s'.Inv := by
  rw [step] at hstep
  split at hstep
  case h_1 socket ht =>
    cases Except.ok.inj hstep
    exact h.closeTunnel ht
  case h_2 => cases Except.ok.inj hstep; exact h

theorem Inv.reset {s s' : Routing Client} {c : Client} {key : QVPNServerSocketData} (h : s.Inv)
    (hstep : s.step (.reset c key) = .ok s') : s'.Inv := by
  rw [step] at hstep
  split at hstep
  case h_1 socket ht =>
    cases Except.ok.inj hstep
    exact h.drop rfl
  case h_2 => cases Except.ok.inj hstep; exact h

/-- A new entry leads from a new raw socket to the client that asked for it. -/
theorem Inv.connect {s s' : Routing Client} {c : Client} {key : QVPNServerSocketData}
    {net : ConnectOutcome} (h : s.Inv) (hguard : s.Guard (.connect c key net))
    (hstep : s.step (.connect c key net) = .ok s') : s'.Inv := by
  rw [step] at hstep
  split at hstep
  case h_2 => cases Except.ok.inj hstep; exact h
  case h_1 socket ht =>
    split at hstep
    case isFalse => cases Except.ok.inj hstep; exact h
    case isTrue hpossible =>
      cases Except.ok.inj hstep
      refine (h.openFor hguard hpossible rfl).of_entries rfl rfl rfl ?_ ?_
      · intro c' t' ht'
        dsimp only [afterConnect] at ht'
        split at ht'
        · exact exists_of_setPhase ht ht'
        · exact ⟨t', ht', rfl⟩
      · intro key' fd socket' hentry
        rcases connectToServerImpl_responseSockets hentry with hold | ⟨rfl, hraw⟩
        · exact Or.inl hold
        · refine Or.inr ⟨c, ?_, hpossible.openFor_of_some (h.tunnels c _ ht)⟩
          exact if_pos hraw

theorem Inv.take {s s' : Routing Client} {key : QVPNServerSocketData} (h : s.Inv)
    (hstep : s.step (.take key) = .ok s') : s'.Inv := by
  rw [step] at hstep
  split at hstep
  case h_1 fd socket _ hentry =>
    cases Except.ok.inj hstep
    refine h.of_listener rfl rfl rfl h.isolated ?_ ?_
    · intro key' fd' socket' hlistener
      cases hlistener
      exact .entry hentry
    · intro opener fd' records key' reset hlistener
      cases hlistener
  case h_2 => cases Except.ok.inj hstep; exact h

theorem Inv.skip {s s' : Routing Client} (h : s.Inv) (hstep : s.step .skip = .ok s') : s'.Inv := by
  rw [step] at hstep
  split at hstep
  case h_1 =>
    cases Except.ok.inj hstep
    refine h.of_listener rfl rfl rfl h.isolated ?_ ?_
    · intro key fd socket hlistener
      cases hlistener
    · intro opener fd records key reset hlistener
      cases hlistener
  case h_2 => cases Except.ok.inj hstep; exact h

theorem Inv.receive {s s' : Routing Client} {m : QVPNPacketManager} {sent : ℕ → Bool}
    {mem : List UByte} {size : ℕ} (h : s.Inv) (hstep : s.step (.receive m sent mem size) = .ok s') :
    s'.Inv := by
  rw [step] at hstep
  split at hstep
  case h_1 key fd socket hwaiting =>
    obtain ⟨⟨records, reset, m'⟩, -, hstep⟩ := bind_eq_ok_iff.mp hstep
    cases Except.ok.inj hstep
    refine h.of_listener rfl rfl rfl h.isolated ?_ ?_
    · intro key' fd' socket' hlistener
      cases hlistener
    · intro opener fd' records' key' reset' hlistener
      cases hlistener
      exact .waiting hwaiting
  case h_2 => cases Except.ok.inj hstep; exact h

/-- A record is written to the tunnel of the client, or to no descriptor. -/
theorem Inv.send {s s' : Routing Client} (h : s.Inv) (hstep : s.step .send = .ok s') : s'.Inv := by
  rw [step] at hstep
  split at hstep
  case h_1 opener fd record records key reset hsending =>
    cases Except.ok.inj hstep
    have hroute : s.Routes fd opener := .sending hsending
    obtain ⟨c, hopener, hfd⟩ := h.routes fd opener hroute
    refine h.of_listener rfl rfl rfl ?_ ?_ ?_
    · intro e he
      rcases List.mem_append.mp he with hold | hnew
      · exact h.isolated e hold
      · rcases hfd with hclosed | htunnel
        · rw [hclosed] at hnew
          cases hnew
        · rw [htunnel] at hnew
          cases List.mem_singleton.mp hnew
          exact ⟨c, hopener, rfl⟩
    · intro key' fd' socket' hlistener
      cases hlistener
    · intro opener' fd' records' key' reset' hlistener
      cases hlistener
      exact hroute
  case h_2 opener fd key reset hsending =>
    cases Except.ok.inj hstep
    have hidle : Inv { s with listener := .idle } := by
      refine h.of_listener rfl rfl rfl h.isolated ?_ ?_
      · intro key' fd' socket' hlistener
        cases hlistener
      · intro opener' fd' records' key' reset' hlistener
        cases hlistener
    cases reset with
    | false => exact hidle
    | true => exact hidle.drop rfl
  case h_3 => cases Except.ok.inj hstep; exact h

/-- Every action that meets the guard keeps the invariant. -/
theorem Inv.step {s s' : Routing Client} {a : RoutingAction Client} (h : s.Inv) (hguard : s.Guard a)
    (hstep : s.step a = .ok s') : s'.Inv := by
  cases a with
  | accept c socket => exact h.accept hguard hstep
  | authorize c success => exact h.authorize hstep
  | connect c key net => exact h.connect hguard hstep
  | reset c key => exact h.reset hstep
  | close c => exact h.close hstep
  | take key => exact h.take hstep
  | skip => exact h.skip hstep
  | receive m sent mem size => exact h.receive hstep
  | send => exact h.send hstep

/-- Whatever keys the clients use and however their requests, their connections and the responses
interleave: when no number that responses still go to is given out for anything else, every
record of a response goes to the client whose connection received it. -/
theorem guarded_responses_isolated (s : Routing Client)
    (hrun : Run.Reaches (fun s a s' => step s a = .ok s') Guard (start Client) s) : s.Isolated :=
  (hrun.invariant inv_start fun _ _ _ hinv hguard hstep => hinv.step hguard hstep).isolated

/-- A running client sets up a connection for a packet and looks its socket up. -/
theorem exists_reaches_connect {r : Routing Client} {c : Client} {client : Fd}
    {packet : QTunnelData} {net : ConnectOutcome} {connections connections' : Connections}
    {forwarded : Option (QVPNServerSocketData × FullPacketObject)}
    (htunnel : r.tunnel c = some ⟨client, .running⟩) (hpossible : net.Possible r.opened)
    (hguard : r.Guard (.connect c packet.key net)) (hsockMap : r.sockMap c = connections.sockMap)
    (hresponse : r.responseSockets = connections.responseSockets)
    (h : connections.forwardPacket net client packet = .ok (forwarded, connections')) :
    ∃ r', Run.Reaches (fun r a r' => step r a = .ok r') Guard r r' ∧
      r'.sockMap c = connections'.sockMap ∧ r'.responseSockets = connections'.responseSockets ∧
      r'.tunnel c = some ⟨client, if forwarded = none then .stopped else .running⟩ := by
  obtain ⟨key, hconnect, hfound⟩ := Connections.forwardPacket_sockets h
  have hstep : step r (.connect c packet.key net) =
      .ok (r.afterConnect c client packet.key net) := by
    rw [step, htunnel]
    exact if_pos hpossible
  refine ⟨_, (Run.Reaches.refl r).step hguard hstep, ?_⟩
  rw [afterConnect, hsockMap, hresponse, hconnect]
  refine ⟨Function.update_self .., rfl, ?_⟩
  dsimp only
  rcases hfound with ⟨rfl, hnone⟩ | ⟨hsome, hsocket⟩
  · rw [hnone]
    exact Function.update_self ..
  · obtain ⟨socket, hsocket⟩ := Option.ne_none_iff_exists'.mp hsocket
    rw [hsocket, if_neg hsome]
    exact htunnel

/-- The request loop's work on sockets is made of these actions: a round sets up a connection, drops
its entry if the packet resets it, and stops the thread when it finds no socket. -/
theorem exists_reaches_of_requestRound {r : Routing Client} {c : Client} {client : Fd}
    {layers : QVPNLayersSettings} {net : RequestOutcome} {s s' : RequestState} {record : List UByte}
    {exit : Option Bool} (htunnel : r.tunnel c = some ⟨client, .running⟩)
    (hpossible : net.connect.Possible r.opened)
    (hguard : ∀ key, r.Guard (.connect c key net.connect))
    (hsockMap : r.sockMap c = s.connections.sockMap)
    (hresponse : r.responseSockets = s.connections.responseSockets)
    (h : RequestState.requestRound layers client net s record = .ok (exit, s')) :
    ∃ r', Run.Reaches (fun r a r' => step r a = .ok r') Guard r r' ∧
      r'.sockMap c = s'.connections.sockMap ∧
      r'.responseSockets = s'.connections.responseSockets ∧
      r'.tunnel c = some ⟨client, if exit = some false then .stopped else .running⟩ := by
  obtain ⟨⟨decodedData, manager⟩, -, h⟩ := bind_eq_ok_iff.mp h
  cases decodedData with
  | none =>
    cases Except.ok.inj h
    exact ⟨r, .refl r, hsockMap, hresponse, htunnel⟩
  | some packet =>
    obtain ⟨⟨forwarded, connections⟩, hforward, h⟩ := bind_eq_ok_iff.mp h
    obtain ⟨r₁, hrun, hsockMap₁, hresponse₁, htunnel₁⟩ := exists_reaches_connect htunnel hpossible
      (hguard packet.key) hsockMap hresponse hforward
    cases forwarded with
    | none =>
      cases Except.ok.inj h
      exact ⟨r₁, hrun, hsockMap₁, hresponse₁, htunnel₁⟩
    | some sent =>
      dsimp only at h
      split at h
      · cases Except.ok.inj h
        exact ⟨r₁, hrun, hsockMap₁, hresponse₁, htunnel₁⟩
      · obtain ⟨reset, -, h⟩ := bind_eq_ok_iff.mp h
        cases reset with
        | false =>
          cases Except.ok.inj h
          exact ⟨r₁, hrun, hsockMap₁, hresponse₁, htunnel₁⟩
        | true =>
          cases Except.ok.inj h
          have hreset : step r₁ (.reset c sent.1) =
              .ok { r₁ with responseSockets := dropResponseSocket r₁.responseSockets sent.1 } := by
            rw [step, htunnel₁]
            rfl
          exact ⟨_, hrun.step (a := .reset c sent.1) trivial hreset, hsockMap₁, by rw [hresponse₁],
            htunnel₁⟩

/-- A well-formed packet of a raw socket is written to whatever the listener's copy of the client's
descriptor is. -/
theorem exists_delivery {s : Routing Client} {key : QVPNServerSocketData} {fd : Fd}
    {socket : PackedSocket} {receiver : Descriptor Client} {r : Reply} {proto : TransportProtocol}
    {src : List UByte} {srcPort : UShort} (hlistener : s.listener = .waiting key fd socket)
    (hreceiver : s.opened fd = some receiver) (hclient : key.clientLocalAddr.ip.length = 4)
    (hr : r.WellFormed proto) (hsource : slice r.ipHeader 12 16 = .ok src)
    (hport : read16 r.transportHeader 0 = .ok srcPort) (hadvance : r.OptionsAdvance proto) :
    ∃ s' record, Run.Reaches (fun s a s' => step s a = .ok s') Guard s s' ∧
      s'.sent = s.sent ++ [⟨s.opened socket.rawSocket, receiver, record⟩] ∧
      s'.sockMap = s.sockMap := by
  obtain ⟨proxy, reset, -, -, hresponse⟩ := vpnResponseLoopIteration_reply key
    (initial_defaultConfig .increasing) hclient hr hsource hport hadvance
  have hreceive : step s (.receive (initial .increasing) (fun _ => true) (receiveBuffer r.bytes)
      r.bytes.length) = .ok { s with
        listener := .sending (s.opened socket.rawSocket) fd [wholeRecord 0 proxy r.payload] key
          reset } := by
    rw [step, hlistener]
    dsimp only
    rw [hresponse]
    rfl
  refine ⟨_, wholeRecord 0 proxy r.payload, ((Run.Reaches.refl s).step trivial hreceive).step
    (a := .send) trivial rfl, ?_, ?_⟩
  · dsimp only
    rw [hreceiver]
    rfl
  · rfl

/-- What the operating system answers when a connection is set up. -/
def connectedTo (rawSocket shadowSocket : Fd) : ConnectOutcome :=
  ⟨some rawSocket, some shadowSocket, true, true, ⟨[192, 168, 0, 1]⟩⟩

/-- Two clients send the same query, and the answer goes to the client whose raw socket received
it. -/
theorem guarded_responses_isolated_equalKeys : ∃ s : Routing Bool, ∃ record,
    s.sent = [⟨some (.remote false), .tunnel false, record⟩] ∧
      s.sockMap true querySend.key = some ⟨some 10, 9⟩ ∧ s.Isolated := by
  have hwaiting : ∃ s : Routing Bool,
      Run.Reaches (fun s a s' => step s a = .ok s') Guard (start Bool) s ∧
      s.listener = .waiting querySend.key 5 ⟨some 8, 7⟩ ∧ s.opened 5 = some (.tunnel false) ∧
      s.opened 7 = some (.remote false) ∧ s.sent = [] ∧
      s.sockMap true querySend.key = some ⟨some 10, 9⟩ := by
    refine ⟨_, (((((((Run.Reaches.refl (start Bool)).step (a := .accept false 5) ?_ rfl).step
      (a := .authorize false true) trivial rfl).step (a := .accept true 6) ?_ rfl).step
      (a := .authorize true true) trivial rfl).step
      (a := .connect false query.key (connectedTo 7 8)) ?_ rfl).step
      (a := .connect true query.key (connectedTo 9 10)) ?_ rfl).step
      (a := .take querySend.key) trivial rfl, rfl, rfl, rfl, rfl, rfl⟩
    · intro opener hroute
      obtain ⟨key, socket, hentry⟩ := hroute.exists_entry rfl
      cases hentry
    · intro opener hroute
      obtain ⟨key, socket, hentry⟩ := hroute.exists_entry rfl
      cases hentry
    · intro fd _ opener hroute
      obtain ⟨key, socket, hentry⟩ := hroute.exists_entry rfl
      cases hentry
    · intro fd hfd opener hroute
      obtain ⟨key, socket, hentry⟩ := hroute.exists_entry rfl
      have hfive : fd = 5 := by
        change Function.update (fun _ => none) querySend.key _ key = some (fd, socket) at hentry
        rw [Function.update_apply] at hentry
        split at hentry
        · cases hentry
          rfl
        · cases hentry
      subst hfive
      exact absurd hfd (by decide)
  obtain ⟨s, hrun, hlistener, htunnel, hremote, hsent, hsockMap⟩ := hwaiting
  have hr := queryReply_answers
  obtain ⟨s', record, hdelivery, hsent', hsockMap'⟩ := exists_delivery hlistener htunnel rfl
    hr.wellFormed hr.source hr.sourcePort (fun hproto => nomatch hproto)
  rw [hsent, hremote] at hsent'
  refine ⟨s', record, hsent', by rw [hsockMap', hsockMap], guarded_responses_isolated s' ?_⟩
  exact hrun.trans hdelivery

/-- A client's request finds no socket, so its descriptor is closed. The next client gets the
number, and the answer to the first client's query. -/
theorem reusedDescriptor_not_isolated : ∃ s : Routing Bool, ∃ record,
    Run.Reaches (fun s a s' => step s a = .ok s') (fun _ _ => True) (start Bool) s ∧
      s.sent = [⟨some (.remote false), .tunnel true, record⟩] ∧ ¬ s.Isolated := by
  have hwaiting : ∃ s : Routing Bool,
      Run.Reaches (fun s a s' => step s a = .ok s') (fun _ _ => True) (start Bool) s ∧
      s.listener = .waiting querySend.key 5 ⟨some 8, 7⟩ ∧ s.opened 5 = some (.tunnel true) ∧
      s.opened 7 = some (.remote false) ∧ s.sent = [] :=
    ⟨_, ((((((((Run.Reaches.refl (start Bool)).step (a := .accept false 5) trivial rfl).step
      (a := .authorize false true) trivial rfl).step
      (a := .connect false query.key (connectedTo 7 8)) trivial rfl).step
      (a := .connect false syn.key { connectedTo 9 10 with connected := false }) trivial rfl).step
      (a := .close false) trivial rfl).step (a := .accept true 5) trivial rfl).step
      (a := .authorize true true) trivial rfl).step (a := .take querySend.key) trivial rfl,
      rfl, rfl, rfl, rfl⟩
  obtain ⟨s, hrun, hlistener, htunnel, hremote, hsent⟩ := hwaiting
  have hr := queryReply_answers
  obtain ⟨s', record, hdelivery, hsent', -⟩ := exists_delivery hlistener htunnel rfl
    hr.wellFormed hr.source hr.sourcePort (fun hproto => nomatch hproto)
  rw [hsent, hremote] at hsent'
  refine ⟨s', record, hrun.trans (hdelivery.mono fun _ _ _ => trivial), hsent', ?_⟩
  intro hisolated
  obtain ⟨c, hopener, hreceiver⟩ := hisolated ⟨some (.remote false), .tunnel true, record⟩ (by
    rw [hsent']
    exact List.mem_singleton_self _)
  cases hopener
  cases hreceiver

end Routing

end QVPN
