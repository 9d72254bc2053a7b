import QVPN.Lib.Interleaving
import QVPN.Lib.Run
import QVPN.Properties.HandshakeBytes

/-!
# Agreement of the handshake

Connections of clients and of strangers are served one after the other. A client takes itself for
authorized only when the server has started a tunnel for it, with its own credentials, and the server
starts tunnels for registered users only. Whatever the other connections send, a handshake that is
not disturbed itself ends as the users table says.
-/

namespace QVPN

open Interleaving Memory QVPNServerDriver

/-- Where a client is in its handshake. -/
inductive ClientPhase where
  | idle
  | waiting (sent : Bool)
  | done (authorized : Bool)
  deriving DecidableEq, Repr

/-- What the server made of a connection. -/
inductive ServerPhase where
  | waiting
  | closed
  | tunnel (cred : Credentials)
  deriving DecidableEq, Repr

/-- One connection: who was announced on it, the bytes on their way to the server and back, and what
either side made of them. On the connection of a stranger nobody is announced. -/
structure Exchange where
  announced : Option Credentials
  toServer : List UByte
  toClient : List UByte
  client : ClientPhase
  server : ServerPhase
  deriving DecidableEq, Repr

/-- A client sends its hello and, later, looks at its answer; a stranger sends any bytes; the server
takes as many bytes as have arrived. The operating system decides what succeeds. -/
inductive HandshakeStep where
  | hello (rnd : HelloRandom) (host : List UByte) (cred : Credentials) (sent : Bool)
  | forge (bytes : List UByte)
  | serve (received : Bool) (n : ℕ) (draws : HelloDraws) (sent : Bool)
  | finish (received : Bool) (n : ℕ)

namespace Exchange

/-- A connection that was accepted but carried nothing yet. -/
def start : Exchange := ⟨none, [], [], .idle, .waiting⟩

/-- The connection after the server has seen to it. -/
def served (x : Exchange) (accepted : QVPNServerDriver.Accepted) (sent : Bool) : Exchange :=
  { x with
    toClient := if sent then accepted.sends.flatten else []
    server := match accepted.tunnel with
      | none => .closed
      | some cred => .tunnel cred }

variable (checkUser : List UByte → Bool)

/-- A step that does not fit the phases changes nothing. -/
def step (x : Exchange) : HandshakeStep → Except Fault Exchange
  | .hello rnd host cred sent =>
    if x.client = .idle ∧ x.toServer = [] then
      .ok { x with
        announced := some cred
        toServer := if sent then QVPNClientDriver.initHello rnd host cred else []
        client := .waiting sent }
    else .ok x
  | .forge bytes =>
    if x.client = .idle then .ok { x with toServer := x.toServer ++ bytes } else .ok x
  | .serve received n draws sent =>
    if x.server = .waiting then do
      let accepted ← QVPNServerDriver.listenAndConnectSocket checkUser draws
        ⟨⟨⟨received, 0⟩, x.toServer.take n⟩, sent⟩
      return x.served accepted sent
    else .ok x
  | .finish received n =>
    match x.client with
    | .waiting sent => do
      let authorized ← QVPNClientDriver.init ⟨sent, ⟨⟨received, 0⟩, x.toClient.take n⟩⟩
      return { x with client := .done authorized }
    | _ => .ok x

/-- The server reads to the end of the credentials, and their lengths fit the session id. -/
def Intact (x : Exchange) : HandshakeStep → Prop
  | .serve _ n _ _ => ∀ cred, x.announced = some cred →
      cred.key.length + cred.user.length + 4 ≤ 255 ∧ 44 + cred.cryptoData.length ≤ n
  | _ => True

/-- What holds of a connection at any time. -/
structure Agreed (x : Exchange) : Prop where
  registered : ∀ cred, x.server = .tunnel cred → checkUser cred.user = true
  read : ∀ cred, x.server = .tunnel cred → x.toServer ≠ []
  own : ∀ own cred, x.announced = some own → x.server = .tunnel cred → cred = own
  silent : (∀ cred, x.server ≠ .tunnel cred) → x.toClient = []
  idle : x.client = .idle → x.announced = none
  named : x.client ≠ .idle → ∃ own, x.announced = some own
  hello : ∀ own, x.announced = some own → x.toServer = [] ∨
    ∃ rnd host, x.toServer = QVPNClientDriver.initHello rnd host own
  authorized : x.client = .done true → ∃ cred, x.server = .tunnel cred

/-- Nothing has been agreed about a new connection. -/
theorem agreed_start : Agreed checkUser start where
  registered := by intro cred h; cases h
  read := by intro cred h; cases h
  own := by intro own cred h; cases h
  silent := by intro _; rfl
  idle := by intro _; rfl
  named := by intro h; exact absurd rfl h
  hello := by intro own h; cases h
  authorized := by intro h; cases h

variable {checkUser} {x x' : Exchange}

/-- A client announces itself on a connection that carried nothing, so the server has not started a
tunnel on it. -/
theorem Agreed.hello_step (h : Agreed checkUser x) (hempty : x.toServer = [])
    (rnd : HelloRandom) (host : List UByte) (cred : Credentials) (sent : Bool) :
    Agreed checkUser { x with
      announced := some cred
      toServer := if sent then QVPNClientDriver.initHello rnd host cred else []
      client := .waiting sent } where
  registered := h.registered
  read := by
    intro other htunnel
    exact absurd hempty (h.read other htunnel)
  own := by
    intro own other _ htunnel
    exact absurd hempty (h.read other htunnel)
  silent := h.silent
  idle := by intro hidle; cases hidle
  named := by intro _; exact ⟨cred, rfl⟩
  hello := by
    intro own hown
    cases hown
    cases sent with
    | false => exact Or.inl rfl
    | true => exact Or.inr ⟨rnd, host, rfl⟩
  authorized := by intro hdone; cases hdone

/-- A stranger sends on a connection on which nobody is announced. -/
theorem Agreed.forge_step (h : Agreed checkUser x) (hidle : x.client = .idle) (bytes : List UByte) :
    Agreed checkUser { x with toServer := x.toServer ++ bytes } where
  registered := h.registered
  read := by
    intro cred htunnel hempty
    exact h.read cred htunnel (List.append_eq_nil_iff.mp hempty).1
  own := h.own
  silent := h.silent
  idle := h.idle
  named := h.named
  hello := by
    intro own hown
    rw [h.idle hidle] at hown
    cases hown
  authorized := h.authorized

/-- The server closes a connection and sends nothing. -/
theorem Agreed.close_step (h : Agreed checkUser x) (hwaiting : x.server = .waiting) :
    Agreed checkUser { x with toClient := [], server := .closed } where
  registered := by intro cred hclosed; cases hclosed
  read := by intro cred hclosed; cases hclosed
  own := by intro own cred _ hclosed; cases hclosed
  silent := by intro _; rfl
  idle := h.idle
  named := h.named
  hello := h.hello
  authorized := by
    intro hdone
    obtain ⟨cred, htunnel⟩ := h.authorized hdone
    rw [hwaiting] at htunnel
    cases htunnel

/-- The server starts the tunnel of a registered user with the credentials it read. -/
theorem Agreed.tunnel_step (h : Agreed checkUser x) {n : ℕ} {cred : Credentials}
    (hread : QVPNServerDriver.checkHello (receiveBuffer (x.toServer.take n)) = .ok (some cred))
    (huser : checkUser cred.user = true)
    (hintact : ∀ own, x.announced = some own → own.key.length + own.user.length + 4 ≤ 255 ∧
      44 + own.cryptoData.length ≤ n) (toClient : List UByte) :
    Agreed checkUser { x with toClient := toClient, server := .tunnel cred } := by
  have hbytes : x.toServer ≠ [] := by
    intro hempty
    rw [hempty, List.take_nil, checkHello_receiveBuffer_nil] at hread
    cases hread
  refine
    { registered := ?_, read := ?_, own := ?_, silent := ?_, idle := h.idle, named := h.named
      hello := h.hello, authorized := ?_ }
  · intro other htunnel
    cases htunnel
    exact huser
  · intro _ _
    exact hbytes
  · intro own other hown htunnel
    cases htunnel
    cases h.hello own hown with
    | inl hempty => exact absurd hempty hbytes
    | inr hhello =>
      obtain ⟨rnd, host, hhello⟩ := hhello
      obtain ⟨hfits, hreaches⟩ := hintact own hown
      rw [hhello, checkHello_receivedHello rnd host hfits hreaches] at hread
      exact (Option.some.inj (Except.ok.inj hread)).symm
  · intro hno
    exact absurd rfl (hno cred)
  · intro _
    exact ⟨cred, rfl⟩

/-- A client that takes itself for authorized has received something. -/
theorem Agreed.finish_step (h : Agreed checkUser x) {sent received : Bool}
    (hwaiting : x.client = .waiting sent) {n : ℕ} {authorized : Bool}
    (hinit : QVPNClientDriver.init ⟨sent, ⟨⟨received, 0⟩, x.toClient.take n⟩⟩ = .ok authorized) :
    Agreed checkUser { x with client := .done authorized } where
  registered := h.registered
  read := h.read
  own := h.own
  silent := h.silent
  idle := by intro hidle; cases hidle
  named := by
    intro _
    exact h.named (by rw [hwaiting]; intro hidle; cases hidle)
  hello := h.hello
  authorized := by
    intro hdone
    injection hdone with hdone
    by_contra hno
    have hnothing := h.silent (by intro cred htunnel; exact hno ⟨cred, htunnel⟩)
    rw [init_eq, hnothing, List.take_nil, getD_receiveBuffer_nil, hdone] at hinit
    simp at hinit

/-- Every step on a connection keeps what was agreed. -/
theorem Agreed.step (h : Agreed checkUser x) {a : HandshakeStep} (hintact : x.Intact a)
    (hstep : Exchange.step checkUser x a = .ok x') : Agreed checkUser x' := by
  cases a with
  | hello rnd host cred sent =>
    rw [Exchange.step] at hstep
    split at hstep
    · next hfits =>
      cases Except.ok.inj hstep
      exact h.hello_step hfits.2 rnd host cred sent
    · cases Except.ok.inj hstep
      exact h
  | forge bytes =>
    rw [Exchange.step] at hstep
    split at hstep
    · next hidle =>
      cases Except.ok.inj hstep
      exact h.forge_step hidle bytes
    · cases Except.ok.inj hstep
      exact h
  | serve received n draws sent =>
    rw [Exchange.step] at hstep
    split at hstep
    · next hwaiting =>
      obtain ⟨accepted, haccepted, hstep⟩ := bind_eq_ok_iff.mp hstep
      cases Except.ok.inj hstep
      obtain rfl | ⟨cred, record, hread, huser, -, rfl⟩ := listenAndConnectSocket_cases haccepted
      · rw [served, List.flatten_nil, ite_self]
        exact h.close_step hwaiting
      · cases sent with
        | false => exact h.close_step hwaiting
        | true => exact h.tunnel_step hread huser hintact _
    · cases Except.ok.inj hstep
      exact h
  | finish received n =>
    rw [Exchange.step] at hstep
    split at hstep
    · next sent hwaiting =>
      obtain ⟨authorized, hinit, hstep⟩ := bind_eq_ok_iff.mp hstep
      cases Except.ok.inj hstep
      exact h.finish_step hwaiting hinit
    · cases Except.ok.inj hstep
      exact h

end Exchange

/-- How a handshake ends that is not disturbed. -/
theorem run_exchange (checkUser : List UByte → Bool) (rnd : HelloRandom) (host : List UByte)
    {cred : Credentials} (hfits : cred.key.length + cred.user.length + 4 ≤ 255) {n : ℕ}
    (hn : 44 + cred.cryptoData.length ≤ n) (m : ℕ) (draws : HelloDraws)
    (sent received answered arrived : Bool) :
    ∃ x₁ x₂ x₃, Exchange.step checkUser .start (.hello rnd host cred sent) = .ok x₁ ∧
      x₁.step checkUser (.serve received n draws answered) = .ok x₂ ∧
      x₂.step checkUser (.finish arrived m) = .ok x₃ ∧ x₁.announced = some cred ∧
      x₃.server = (if sent && received && checkUser cred.user && answered then .tunnel cred
        else .closed) ∧
      x₃.client = .done (sent && received && checkUser cred.user && answered && arrived &&
        decide (6 ≤ m)) := by
  obtain ⟨record, hrecord, -⟩ := exists_answerRecord draws
  have hserve := listenAndConnectSocket_hello checkUser rnd host hfits hn sent received answered
    hrecord
  generalize haccepted : (if sent && received && checkUser cred.user then
    ⟨[record], if answered then some cred else none⟩ else ⟨[], none⟩ : Accepted) = accepted at hserve
  let x₁ : Exchange := ⟨some cred, if sent then QVPNClientDriver.initHello rnd host cred else [], [],
    .waiting sent, .waiting⟩
  have hx₂ : x₁.step checkUser (.serve received n draws answered) =
      .ok (x₁.served accepted answered) := by
    rw [Exchange.step, if_pos rfl, hserve]
    rfl
  have hx₃ (authorized : Bool) (hinit : QVPNClientDriver.init ⟨sent, ⟨⟨arrived, 0⟩,
      (x₁.served accepted answered).toClient.take m⟩⟩ = .ok authorized) :
      (x₁.served accepted answered).step checkUser (.finish arrived m) =
        .ok { x₁.served accepted answered with client := .done authorized } := by
    rw [Exchange.step]
    have hclient : (x₁.served accepted answered).client = .waiting sent := rfl
    rw [hclient]
    dsimp only
    rw [hinit]
    rfl
  cases hgood : sent && received && checkUser cred.user with
  | false =>
    rw [hgood, if_neg Bool.false_ne_true] at haccepted
    subst haccepted
    refine ⟨x₁, _, _, rfl, hx₂, hx₃ false ?_, rfl, rfl, rfl⟩
    rw [Exchange.served, List.flatten_nil, ite_self]
    exact init_nil sent arrived m
  | true =>
    rw [hgood, if_pos rfl] at haccepted
    subst haccepted
    have hsent : sent = true := by
      rw [Bool.and_assoc, Bool.and_eq_true] at hgood
      exact hgood.1
    cases answered with
    | false => exact ⟨x₁, _, _, rfl, hx₂, hx₃ false (init_nil sent arrived m), rfl, rfl, rfl⟩
    | true =>
      refine ⟨x₁, _, _, rfl, hx₂, hx₃ _ ?_, rfl, rfl, rfl⟩
      rw [Exchange.served, if_pos rfl, List.flatten_cons, List.flatten_nil, List.append_nil,
        init_answer hrecord, hsent]
      rfl

section System

variable {Client : Type} [DecidableEq Client] (checkUser : List UByte → Bool)

/-- A step on one of the connections. -/
def handshakeStep (s : Client → Exchange) (a : Client × HandshakeStep) :
    Except Fault (Unit × (Client → Exchange)) := do
  let x ← (s a.1).step checkUser a.2
  return ((), Function.update s a.1 x)

theorem handshakeStep_eq_ok {checkUser : List UByte → Bool} {s : Client → Exchange} {c : Client}
    {a : HandshakeStep} {x : Exchange} (h : (s c).step checkUser a = .ok x) :
    handshakeStep checkUser s (c, a) = .ok ((), Function.update s c x) := by
  rw [handshakeStep, h]
  rfl

/-- In every run of intact steps, whatever strangers send: tunnels belong to registered users and have
the credentials that were announced; nothing is sent on the other connections; and a client takes
itself for authorized only if the server has started its tunnel. -/
theorem handshake_agreement {s : Client → Exchange}
    (hrun : Run.Reaches (fun s a s' => handshakeStep checkUser s a = .ok ((), s'))
      (fun s a => (s a.1).Intact a.2) (fun _ => .start) s) (c : Client) :
    (∀ cred, (s c).server = .tunnel cred → checkUser cred.user = true ∧
      ∀ own, (s c).announced = some own → cred = own) ∧
    ((∀ cred, (s c).server ≠ .tunnel cred) → (s c).toClient = []) ∧
    ((s c).client = .done true → ∃ own, (s c).announced = some own ∧
      (s c).server = .tunnel own) := by
  have hagreed : ∀ c, (s c).Agreed checkUser := by
    apply hrun.invariant
    · intro _
      exact Exchange.agreed_start checkUser
    · rintro t ⟨d, a⟩ t' hinv hintact hstep e
      obtain ⟨x, hx, hstep⟩ := bind_eq_ok_iff.mp hstep
      cases Except.ok.inj hstep
      by_cases he : e = d
      · subst he
        rw [Function.update_self]
        exact (hinv e).step hintact hx
      · rw [Function.update_of_ne he]
        exact hinv e
  have hc := hagreed c
  refine ⟨?_, hc.silent, ?_⟩
  · intro cred htunnel
    exact ⟨hc.registered cred htunnel, fun own hown => hc.own own cred hown htunnel⟩
  · intro hdone
    obtain ⟨cred, htunnel⟩ := hc.authorized hdone
    obtain ⟨own, hown⟩ := hc.named (by rw [hdone]; intro hidle; cases hidle)
    rw [hc.own own cred hown htunnel] at htunnel
    exact ⟨own, hown, htunnel⟩

/-- A hello without any randomness. -/
def zeroRandom : HelloRandom where
  random := List.replicate 32 0
  ciphers := List.replicate 34 0
  compressions := [0]
  keyExchange := List.replicate 32 0
  random_length := rfl
  ciphers_length := rfl
  compressions_length := rfl
  keyExchange_length := rfl

/-- A user of one letter. -/
def guest : Credentials := ⟨0, [], [97]⟩

/-- A guest is authorized while a stranger sends. -/
theorem handshake_agreement_guest : ∃ s : Bool → Exchange,
    (s true).client = .done true ∧ (s false).toServer = [22] ∧
    ∃ own, (s true).announced = some own ∧ (s true).server = .tunnel own := by
  obtain ⟨x₁, x₂, x₃, h₁, h₂, h₃, hown, -, hdone⟩ := run_exchange (fun _ => true) zeroRandom []
    (show guest.key.length + guest.user.length + 4 ≤ 255 by decide)
    (show 44 + guest.cryptoData.length ≤ 200 by decide) 6 zeroDraws true true true true
  let s₀ : Bool → Exchange := Function.update (fun _ => .start) false
    { Exchange.start with toServer := [22] }
  let s₁ := Function.update s₀ true x₁
  let s₂ := Function.update s₁ true x₂
  have hforge : handshakeStep (fun _ => true) (fun _ : Bool => .start) (false, .forge [22]) =
      .ok ((), s₀) := handshakeStep_eq_ok rfl
  have hhello : handshakeStep (fun _ => true) s₀ (true, _) = .ok ((), s₁) := handshakeStep_eq_ok h₁
  have hserve : handshakeStep (fun _ => true) s₁ (true, _) = .ok ((), s₂) := handshakeStep_eq_ok h₂
  have hfinish : handshakeStep (fun _ => true) s₂ (true, _) = .ok ((), Function.update s₂ true x₃) :=
    handshakeStep_eq_ok h₃
  have hintact : x₁.Intact (.serve true 200 zeroDraws true) := by
    intro cred hcred
    rw [hown] at hcred
    cases hcred
    exact ⟨by decide, by decide⟩
  have hagreed := handshake_agreement (fun _ => true) (((((Run.Reaches.refl _).step
    (by trivial) hforge).step (by trivial) hhello).step (by exact hintact) hserve).step
    (by trivial) hfinish) true
  have hclient : x₃.client = .done true := by
    rw [hdone]
    rfl
  exact ⟨_, hclient, rfl, hagreed.2.2 hclient⟩

/-- Each connection is on its own. -/
theorem independent_handshakes : Independent (ι := Client) Prod.fst (fun c s => s c)
    (handshakeStep checkUser) fun _ x a => (fun x => ((), x)) <$> Exchange.step checkUser x a.2 where
  own := by
    rintro s ⟨c, a⟩
    dsimp only
    rw [handshakeStep]
    cases Exchange.step checkUser (s c) a with
    | error e => rfl
    | ok x =>
      rw [ok_bind]
      exact congrArg (fun x => Except.ok ((), x)) (Function.update_self c x s)
  others := by
    rintro s ⟨c, a⟩ _ s' hstep i hi
    obtain ⟨x, -, hstep⟩ := bind_eq_ok_iff.mp hstep
    cases Except.ok.inj hstep
    exact Function.update_of_ne hi x s

/-- Whatever goes on on the other connections, a handshake that is not disturbed itself ends as the
users table and the operating system decide, on both sides. -/
theorem handshake_outcome (rnd : HelloRandom) (host : List UByte) {cred : Credentials}
    (hfits : cred.key.length + cred.user.length + 4 ≤ 255) {n : ℕ}
    (hn : 44 + cred.cryptoData.length ≤ n) (m : ℕ) (draws : HelloDraws)
    (sent received answered arrived : Bool) {c : Client} {actions : List (Client × HandshakeStep)}
    (hactions : actionsOf Prod.fst c actions = [(c, .hello rnd host cred sent),
      (c, .serve received n draws answered), (c, .finish arrived m)])
    {answers : List Unit} {s : Client → Exchange}
    (hrun : run (handshakeStep checkUser) (fun _ => .start) actions = .ok (answers, s)) :
    (s c).server = (if sent && received && checkUser cred.user && answered then .tunnel cred
      else .closed) ∧
    (s c).client = .done (sent && received && checkUser cred.user && answered && arrived &&
      decide (6 ≤ m)) := by
  obtain ⟨x₁, x₂, x₃, h₁, h₂, h₃, -, hserver, hclient⟩ := run_exchange checkUser rnd host hfits hn m
    draws sent received answered arrived
  have hown := (independent_handshakes checkUser).run_component hrun c
  rw [hactions] at hown
  obtain ⟨_, y₁, _, hy₁, hown, -⟩ := run_cons_eq_ok_iff.mp hown
  obtain ⟨_, y₂, _, hy₂, hown, -⟩ := run_cons_eq_ok_iff.mp hown
  obtain ⟨_, y₃, _, hy₃, hown, -⟩ := run_cons_eq_ok_iff.mp hown
  dsimp only at hy₁ hy₂ hy₃ hown
  rw [h₁] at hy₁
  cases Except.ok.inj hy₁
  rw [h₂] at hy₂
  cases Except.ok.inj hy₂
  rw [h₃] at hy₃
  cases Except.ok.inj hy₃
  rw [← (Prod.mk.inj (Except.ok.inj hown)).2]
  exact ⟨hserver, hclient⟩

/-- The guest again, and a stranger whose byte arrives in between. -/
theorem handshake_outcome_guest : ∃ s : Bool → Exchange, (s true).server = .tunnel guest ∧
    (s true).client = .done true ∧ (s false).toServer = [22] := by
  have hfits : guest.key.length + guest.user.length + 4 ≤ 255 := by decide
  have hn : 44 + guest.cryptoData.length ≤ 200 := by decide
  obtain ⟨x₁, x₂, x₃, h₁, h₂, h₃, -⟩ := run_exchange (fun _ => true) zeroRandom [] hfits hn 6
    zeroDraws true true true true
  have hrun : run (handshakeStep fun _ => true) (fun _ : Bool => Exchange.start)
      [(true, .hello zeroRandom [] guest true), (false, .forge [22]),
        (true, .serve true 200 zeroDraws true), (true, .finish true 6)] = .ok ([(), (), (), ()], _) :=
    run_cons_eq_ok_iff.mpr ⟨_, _, _, handshakeStep_eq_ok h₁, run_cons_eq_ok_iff.mpr ⟨_, _, _, rfl,
      run_cons_eq_ok_iff.mpr ⟨_, _, _, handshakeStep_eq_ok h₂, run_cons_eq_ok_iff.mpr
        ⟨_, _, _, handshakeStep_eq_ok h₃, rfl, rfl⟩, rfl⟩, rfl⟩, rfl⟩
  obtain ⟨hserver, hclient⟩ := handshake_outcome (fun _ => true) zeroRandom [] hfits hn 6 zeroDraws
    true true true true (c := true) rfl hrun
  exact ⟨_, hserver, hclient, rfl⟩

end System

end QVPN
