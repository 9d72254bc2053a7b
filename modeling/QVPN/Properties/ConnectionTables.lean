import QVPN.Properties.ResponseIsolation

/-!
# The two connection tables

A connection that is set up is entered in the map of its client, where requests find its socket,
and in the shared map of response sockets, which the response loop listens to. A packet with RST
or FIN takes the entry out of the shared map only. From then on requests still go out on a socket
that nothing listens to, and the client's entry keeps the connection from being set up again.

The tables agree in every reachable state as long as only keys that no client's map holds are
taken out. Each step that takes out another key breaks them.
-/

namespace QVPN

namespace Routing

variable {Client : Type}

/-- Every connection that requests are sent on is listened to. -/
def Listened (s : Routing Client) : Prop :=
  ∀ c key, (s.sockMap c key).isSome → (s.responseSockets key).isSome

/-- Where an action takes a key out of the response sockets, no client's map holds it. -/
def DropsUnused (s : Routing Client) : RoutingAction Client → Prop
  | .reset c key => ∀ socket, s.tunnel c = some ⟨socket, .running⟩ → ∀ c', s.sockMap c' key = none
  | .send => ∀ opener responseSocket key,
    s.listener = .sending opener responseSocket [] key true → ∀ c', s.sockMap c' key = none
  | _ => True

theorem listened_start : (start Client).Listened := by
  intro c key h
  cases h

/-- Taking out a key leaves the tables in agreement exactly when no client's map holds it. -/
theorem listened_drop_iff {s : Routing Client} (h : s.Listened) (key : QVPNServerSocketData)
    (listener : ResponseListener Client) :
    Listened { s with listener, responseSockets := dropResponseSocket s.responseSockets key } ↔
      ∀ c, s.sockMap c key = none := by
  constructor
  · intro hlistened c
    by_contra hheld
    have hentry := hlistened c key (Option.isSome_iff_ne_none.mpr hheld)
    simp [dropResponseSocket] at hentry
  · intro hunused c key' hheld
    have hne : key' ≠ key := by
      intro heq
      dsimp only at hheld
      rw [heq, hunused c] at hheld
      cases hheld
    dsimp only [dropResponseSocket]
    rw [Function.update_of_ne hne]
    exact h c key' hheld

/-- Setting up a connection loses no entry of the shared map. -/
theorem connectToServerImpl_keeps (net : ConnectOutcome) (responseSocket : Fd)
    (key : QVPNServerSocketData) (sockMap : SockMap) {responseSockets : ResponseSockets}
    {key' : QVPNServerSocketData} (h : (responseSockets key').isSome) :
    ((connectToServerImpl net responseSocket key sockMap responseSockets).2.2 key').isSome := by
  obtain hsame | ⟨newKey, socket, -, hnew⟩ :=
    connectToServerImpl_cases net responseSocket key sockMap responseSockets
  · rw [hsame]
    exact h
  · rw [hnew]
    exact addToResponseSocketMap_isSome _ _ _ (Or.inr h)

/-- A connection that is entered in the map of its client is entered in the shared map. -/
theorem connectToServerImpl_listened (net : ConnectOutcome) (responseSocket : Fd)
    (key : QVPNServerSocketData) {sockMap : SockMap} {responseSockets : ResponseSockets}
    (h : ∀ key', (sockMap key').isSome → (responseSockets key').isSome)
    {key' : QVPNServerSocketData}
    (hheld : ((connectToServerImpl net responseSocket key sockMap responseSockets).2.1 key').isSome) :
    ((connectToServerImpl net responseSocket key sockMap responseSockets).2.2 key').isSome := by
  obtain hsame | ⟨newKey, socket, -, hnew⟩ :=
    connectToServerImpl_cases net responseSocket key sockMap responseSockets
  · rw [hsame] at hheld ⊢
    exact h key' hheld
  · rw [hnew] at hheld ⊢
    apply addToResponseSocketMap_isSome
    by_cases hkey : key' = newKey
    · exact Or.inl hkey
    · dsimp only at hheld
      rw [Function.update_of_ne hkey] at hheld
      exact Or.inr (h key' hheld)

section

variable [DecidableEq Client]

/-- The end of a client's thread only removes the client's own map. -/
theorem Listened.closeTunnel {s : Routing Client} (h : s.Listened) (c : Client) (socket : Fd) :
    (s.closeTunnel c socket).Listened := by
  intro c' key hheld
  dsimp only [Routing.closeTunnel] at hheld ⊢
  by_cases hc : c' = c
  · rw [hc, Function.update_self] at hheld
    cases hheld
  · rw [Function.update_of_ne hc] at hheld
    exact h c' key hheld

/-- A set-up keeps the tables in agreement. -/
theorem Listened.afterConnect {s : Routing Client} (h : s.Listened) (c : Client) (socket : Fd)
    (key : QVPNServerSocketData) (net : ConnectOutcome) :
    (s.afterConnect c socket key net).Listened := by
  intro c' key' hheld
  dsimp only [Routing.afterConnect] at hheld ⊢
  by_cases hc : c' = c
  · subst hc
    rw [Function.update_self] at hheld
    exact connectToServerImpl_listened net socket key (h c') hheld
  · rw [Function.update_of_ne hc] at hheld
    exact connectToServerImpl_keeps net socket key (s.sockMap c) (h c' key' hheld)

/-- An action keeps the tables in agreement exactly when it takes out no key that is in use. -/
theorem Listened.step_iff {s s' : Routing Client} {a : RoutingAction Client} (h : s.Listened)
    (hstep : s.step a = .ok s') : s'.Listened ↔ s.DropsUnused a := by
  cases a with
  | accept c socket =>
    refine iff_of_true ?_ trivial
    rw [step] at hstep
    split at hstep <;> cases Except.ok.inj hstep <;> exact h
  | authorize c success =>
    refine iff_of_true ?_ trivial
    rw [step] at hstep
    split at hstep
    · split at hstep
      · cases Except.ok.inj hstep
        exact h
      · cases Except.ok.inj hstep
        exact h.closeTunnel c _
    · cases Except.ok.inj hstep
      exact h
  | connect c key net =>
    refine iff_of_true ?_ trivial
    rw [step] at hstep
    split at hstep
    · split at hstep
      · cases Except.ok.inj hstep
        exact h.afterConnect c _ key net
      · cases Except.ok.inj hstep
        exact h
    · cases Except.ok.inj hstep
      exact h
  | reset c key =>
    rw [step] at hstep
    split at hstep
    · rename_i socket ht
      cases Except.ok.inj hstep
      refine (listened_drop_iff h key s.listener).trans ?_
      exact ⟨fun hunused _ _ => hunused, fun hunused => hunused socket ht⟩
    · rename_i hidle
      cases Except.ok.inj hstep
      exact iff_of_true h fun socket ht => absurd ht (hidle socket)
  | close c =>
    refine iff_of_true ?_ trivial
    rw [step] at hstep
    split at hstep
    · cases Except.ok.inj hstep
      exact h.closeTunnel c _
    · cases Except.ok.inj hstep
      exact h
  | take key =>
    refine iff_of_true ?_ trivial
    rw [step] at hstep
    split at hstep <;> cases Except.ok.inj hstep <;> exact h
  | skip =>
    refine iff_of_true ?_ trivial
    rw [step] at hstep
    split at hstep <;> cases Except.ok.inj hstep <;> exact h
  | receive m sent mem size =>
    refine iff_of_true ?_ trivial
    rw [step] at hstep
    split at hstep
    · obtain ⟨_, -, hstep⟩ := Memory.bind_eq_ok_iff.mp hstep
      cases Except.ok.inj hstep
      exact h
    · cases Except.ok.inj hstep
      exact h
  | send =>
    rw [step] at hstep
    split at hstep
    · rename_i opener fd record records key reset hsending
      cases Except.ok.inj hstep
      refine iff_of_true h fun opener' fd' key' hlistener => ?_
      rw [hsending] at hlistener
      cases hlistener
    · rename_i opener fd key reset hsending
      cases Except.ok.inj hstep
      cases reset with
      | false =>
        refine iff_of_true h fun opener' fd' key' hlistener => ?_
        rw [hsending] at hlistener
        cases hlistener
      | true =>
        refine (listened_drop_iff h key .idle).trans ⟨fun hunused opener' fd' key' hlistener => ?_,
          fun hunused => hunused opener fd key hsending⟩
        rw [hsending] at hlistener
        cases hlistener
        exact hunused
    · rename_i hidle
      cases Except.ok.inj hstep
      exact iff_of_true h fun opener fd key hlistener => absurd hlistener (hidle opener fd key true)

/-- However the loops interleave: while only unused keys are taken out, every connection that
requests are sent on is listened to, and a step that takes out a used key ends this. -/
theorem guarded_connections_listened (s : Routing Client)
    (hrun : Run.Reaches (fun s a s' => step s a = .ok s') DropsUnused (start Client) s) :
    s.Listened ∧ ∀ a s', s.step a = .ok s' → (s'.Listened ↔ s.DropsUnused a) := by
  have hlistened : s.Listened := hrun.invariant listened_start fun t a t' h hguard hstep =>
    (Listened.step_iff h hstep).mpr hguard
  exact ⟨hlistened, fun a s' hstep => hlistened.step_iff hstep⟩

end

/-- A client sets up a connection and its packet with RST is sent. The client's map still holds
the socket. -/
theorem resetConnection_not_listened : ∃ s : Routing Unit,
    Run.Reaches (fun s a s' => step s a = .ok s') (fun _ _ => True) (start Unit) s ∧
      s.sockMap () querySend.key = some ⟨some 8, 7⟩ ∧ ¬s.Listened := by
  have hrun : ∃ s : Routing Unit,
      Run.Reaches (fun s a s' => step s a = .ok s') (fun _ _ => True) (start Unit) s ∧
      s.sockMap () querySend.key = some ⟨some 8, 7⟩ ∧ s.responseSockets querySend.key = none :=
    ⟨_, ((((Run.Reaches.refl (start Unit)).step (a := .accept () 5) trivial rfl).step
      (a := .authorize () true) trivial rfl).step
      (a := .connect () query.key (connectedTo 7 8)) trivial rfl).step
      (a := .reset () querySend.key) trivial rfl, rfl, rfl⟩
  obtain ⟨s, hreaches, hheld, hgone⟩ := hrun
  refine ⟨s, hreaches, hheld, fun hlistened => ?_⟩
  have hentry := hlistened () querySend.key (by rw [hheld]; rfl)
  rw [hgone] at hentry
  cases hentry

/-- A client with one connection. -/
theorem guarded_connections_listened_oneConnection : ∃ s : Routing Unit,
    s.sockMap () querySend.key = some ⟨some 8, 7⟩ ∧ s.Listened :=
  ⟨_, rfl, (guarded_connections_listened _ ((((Run.Reaches.refl (start Unit)).step
    (a := .accept () 5) trivial rfl).step (a := .authorize () true) trivial rfl).step
    (a := .connect () query.key (connectedTo 7 8)) trivial rfl)).1⟩

end Routing

end QVPN
