import QVPN.Driver.ListenResponses
import QVPN.Properties.ReturnPath

/-!
# The response thread over many rounds

The response thread serves the connections of all clients. From each connection it takes up what its
raw socket received, up to the first packet with FIN or RST, whatever it does for other connections in
between and whatever other threads do to their entries. What goes to one client can be injected there,
packet by packet.
-/

namespace QVPN

open Memory Polling QVPNLayersSettings QVPNPacketManager

/-- The packet that was received ends its connection. -/
def RawReceive.resets (received : RawReceive) : Bool :=
  match FullPacketView.preParse (receiveBuffer received.bytes) received.bytes.length with
  | .ok view => view.isResetConnectionPacket = .ok true
  | .error _ => false

/-- An entry goes out of the table exactly with such a packet. -/
theorem takeUp_resets {layers : QVPNLayersSettings} {key : QVPNServerSocketData}
    {entry : Fd × PackedSocket} {received : RawReceive} {m m' : QVPNPacketManager}
    {records : List (List UByte)} {drop : Bool}
    (h : takeUp layers key entry received m = .ok (records, drop, m')) : drop = received.resets := by
  obtain ⟨view, hparse, h⟩ := bind_eq_ok_iff.mp h
  obtain ⟨_, -, h⟩ := bind_eq_ok_iff.mp h
  obtain ⟨_, -, h⟩ := bind_eq_ok_iff.mp h
  obtain ⟨_, -, h⟩ := bind_eq_ok_iff.mp h
  obtain ⟨_, -, h⟩ := bind_eq_ok_iff.mp h
  obtain ⟨_, -, h⟩ := bind_eq_ok_iff.mp h
  obtain ⟨_, -, h⟩ := bind_eq_ok_iff.mp h
  obtain ⟨_, -, h⟩ := bind_eq_ok_iff.mp h
  obtain ⟨_, -, h⟩ := bind_eq_ok_iff.mp h
  obtain ⟨reset, hreset, h⟩ := bind_eq_ok_iff.mp h
  cases Except.ok.inj h
  rw [RawReceive.resets, hparse]
  dsimp only
  rw [hreset]
  simp

/-- A packet that can be taken up on the connection of a key. -/
def ArrivesFor (key : QVPNServerSocketData) (received : RawReceive) : Prop :=
  ∃ r : Response, r.key = key ∧ r.reply.bytes = received.bytes ∧ r.Fits

/-- What was taken up is a response, and its record was handed to the socket. -/
structure TakenUpAs (x : TakenUp) (r : Response) : Prop where
  key : r.key = x.key
  bytes : r.reply.bytes = x.item.bytes
  fits : r.Fits
  output : x.output = [r.record]

/-- A response is taken up as its record. -/
theorem Response.Fits.takeUp {r : Response} (h : r.Fits) (entry : Fd × PackedSocket)
    {received : RawReceive} (hbytes : r.reply.bytes = received.bytes) {m : QVPNPacketManager}
    (hm : m.DefaultConfig) (hid : m.lastPacketId = r.id) :
    takeUp defaultLayers r.key entry received m =
      .ok ([r.record], r.reply.resets, m.nextPacketId) := by
  have hone := h.respond_one hm hid received.sent
  rw [hbytes] at hone
  exact hone

/-- What ends the connection is FIN or RST. -/
theorem Response.Fits.resets {r : Response} (h : r.Fits) {received : RawReceive}
    (hbytes : r.reply.bytes = received.bytes) : received.resets = r.reply.resets := by
  have hconfig : DefaultConfig { initial .increasing with lastPacketId := r.id } := ⟨rfl, rfl⟩
  exact (takeUp_resets (h.takeUp (0, ⟨none, 0⟩) hbytes hconfig rfl)).symm

/-- A packet that arrives is taken up, under the next id. -/
theorem takeUp_arrives {key : QVPNServerSocketData} (entry : Fd × PackedSocket)
    {received : RawReceive} {m : QVPNPacketManager} (hm : m.DefaultConfig)
    (h : ArrivesFor key received) : ∃ r : Response, r.key = key ∧
      r.reply.bytes = received.bytes ∧ r.Fits ∧ takeUp defaultLayers key entry received m =
        .ok ([r.record], r.reply.resets, m.nextPacketId) := by
  obtain ⟨⟨_, key, reply⟩, rfl, hbytes, hfits⟩ := h
  have hown : Response.Fits ⟨m.lastPacketId, key, reply⟩ :=
    ⟨hfits.reply, hfits.readable, hfits.size, hfits.client⟩
  exact ⟨⟨m.lastPacketId, key, reply⟩, rfl, hbytes, hown, hown.takeUp entry hbytes hm rfl⟩

/-- Taking up leaves the sizes of a split alone. -/
theorem exists_takeUp {key : QVPNServerSocketData} (entry : Fd × PackedSocket)
    {received : RawReceive} {m : QVPNPacketManager} (hm : m.DefaultConfig)
    (h : ArrivesFor key received) :
    ∃ r, takeUp defaultLayers key entry received m = .ok r ∧ r.2.2.DefaultConfig := by
  obtain ⟨r, -, -, -, hone⟩ := takeUp_arrives entry hm h
  exact ⟨_, hone, hm.max_size, hm.split_size⟩

/-- Everything that the thread takes up is a response. -/
theorem takenUpAs {rounds : List ListenRound} {s t : ListenState} {taken : List TakenUp}
    (hrun : listenResponseSockets defaultLayers rounds s = .ok (taken, t))
    (hm : s.shared.DefaultConfig)
    (harrive : ∀ round ∈ rounds, ∀ key received, round.items key = some received →
      ArrivesFor key received) : ∀ x ∈ taken, ∃ r, TakenUpAs x r := by
  intro x hx
  obtain ⟨harrives, m, result, hconfig, hone, houtput⟩ :=
    rounds_taken (fun _ entry _ _ => exists_takeUp entry) harrive hrun hm x hx
  obtain ⟨r, hkey, hbytes, hfits, htaken⟩ := takeUp_arrives x.entry hconfig harrives
  cases hone.symm.trans htaken
  exact ⟨r, hkey, hbytes, hfits, houtput.symm⟩

/-- Responses that carry TCP, one for each packet that was taken up. -/
theorem exists_responses {taken : List TakenUp} (h : ∀ x ∈ taken, ∃ r, TakenUpAs x r)
    (htcp : ∀ x ∈ taken, x.item.bytes.getD 9 0 = TransportProtocol.TCP.val) :
    ∃ responses, List.Forall₂ TakenUpAs taken responses ∧ (∀ r ∈ responses, r.WellFormed) ∧
      taken.flatMap (·.output) = responses.map Response.record := by
  induction taken with
  | nil => exact ⟨[], .nil, fun _ hr => (List.not_mem_nil hr).elim, rfl⟩
  | cons x taken ih =>
    obtain ⟨r, hr⟩ := h x (List.mem_cons_self ..)
    obtain ⟨responses, hall, hwellFormed, hrecords⟩ := ih
      (fun y hy => h y (List.mem_cons_of_mem _ hy)) fun y hy => htcp y (List.mem_cons_of_mem _ hy)
    have hproto : r.reply.proto = .TCP := by
      have hbyte := htcp x (List.mem_cons_self ..)
      have hnet := hr.fits.reply.net_length
      rw [← hr.bytes, Datagram.bytes, List.append_assoc, List.getD_append _ _ _ _ (by omega),
        hr.fits.reply.packet.protocol] at hbyte
      obtain ⟨hproto, -⟩ | ⟨hproto, -⟩ := hr.fits.reply.packet.transport_header
      · exact hproto
      · rw [hproto] at hbyte
        exact absurd hbyte (by decide)
    refine ⟨r :: responses, .cons hr hall, ?_, ?_⟩
    · intro other hother
      obtain rfl | hother := List.mem_cons.mp hother
      · exact ⟨hr.fits, hproto⟩
      · exact hwellFormed other hother
    · rw [List.flatMap_cons, hrecords, hr.output]
      rfl

/-- What was taken up for a client and could be sent. -/
def sentTo (client : Fd) (taken : List TakenUp) : List TakenUp :=
  taken.filter fun x => x.entry.1 = client && x.item.sent 0

/-- What is injected for packets that were taken up. -/
theorem forall_injected {sizeofView : ℕ} {taken : List TakenUp} {responses : List Response}
    {sends : List WinDivertSend} (htaken : List.Forall₂ TakenUpAs taken responses)
    (hreturns : List.Forall₂ (Returns sizeofView) responses sends) :
    List.Forall₂ (fun x send => ∃ r, TakenUpAs x r ∧ Returns sizeofView r send)
      taken sends := by
  induction htaken generalizing sends with
  | nil =>
    cases hreturns
    exact .nil
  | cons hx _ ih =>
    cases hreturns with
    | cons hsend hlater => exact .cons ⟨_, hx, hsend⟩ (ih hlater)

/-- The response thread serves all connections, whatever order the table has in each round and
whatever other threads do to it between the rounds. From a connection that they leave alone it takes
up its own packets, up to the first with FIN or RST, and then the connection is out of the table. What
was sent to one client is injected there, one packet for each and in order, if each record arrives in
a segment of its own. -/
theorem listen_delivers {calcChecksums : List UByte → List UByte}
    (hcalc : WritesChecksums calcChecksums) (sizeofView : ℕ) {s : ListenState}
    (hm : s.shared.DefaultConfig) {rounds : List ListenRound}
    (hvisits : Visits (takeUp defaultLayers) rounds s)
    (harrive : ∀ round ∈ rounds, ∀ key received, round.items key = some received →
      ArrivesFor key received) :
    ∃ taken t, listenResponseSockets defaultLayers rounds s = .ok (taken, t) ∧
      (∀ key, (∀ round ∈ rounds, ∀ table, round.others table key = table key) →
        takenFrom key taken = (s.table key).elim [] (fun entry =>
          (takenUntil RawReceive.resets (rounds.map fun round => round.items key)).map
            (entry, ·)) ∧
        t.table key = if rounds.any fun round => (round.items key).any RawReceive.resets then none
          else s.table key) ∧
      ∀ (fd : Fd) (client : QVPNPacketManager), client.Empty → client.cached = none →
        (∀ x ∈ sentTo fd taken, x.item.bytes.getD 9 0 = TransportProtocol.TCP.val) →
        ∀ carriers, List.Forall₂ Carrier carriers ((sentTo fd taken).flatMap (·.output)) →
          ∃ sends, incomingCaptures calcChecksums sizeofView client carriers =
              .ok (sends.map some, client) ∧
            List.Forall₂ (fun x send => ∃ r, TakenUpAs x r ∧
              Returns sizeofView r send) (sentTo fd taken) sends := by
  obtain ⟨taken, t, hrun, -⟩ := exists_rounds (fun _ entry _ _ => exists_takeUp entry) harrive hm
  refine ⟨taken, t, hrun, ?_, ?_⟩
  · intro key hothers
    have hstops : ∀ key entry (received : RawReceive) m records drop m',
        takeUp defaultLayers key entry received m = .ok (records, drop, m') →
          drop = received.resets := fun _ _ _ _ _ _ _ h => takeUp_resets h
    exact rounds_key hstops hrun hvisits hothers
  · intro fd client hempty hcached htcp carriers hcarriers
    have hall : ∀ x ∈ sentTo fd taken, ∃ r, TakenUpAs x r := fun x hx =>
      takenUpAs hrun hm harrive x (List.mem_filter.mp hx).1
    obtain ⟨responses, htaken, hwellFormed, hrecords⟩ := exists_responses hall htcp
    rw [hrecords] at hcarriers
    obtain ⟨sends, hsends, hreturns⟩ :=
      incomingCaptures_returns sizeofView hcalc hempty hcached hwellFormed hcarriers
    exact ⟨sends, hsends, forall_injected htaken hreturns⟩

/-- The connection of the answer is listened to. -/
def synAckListened : ListenState where
  table := fun key => if key = synAck.key then some (5, ⟨none, 9⟩) else none
  shared := initial .increasing

def synAckReceived : RawReceive := ⟨synAck.reply.bytes, fun _ => true⟩

/-- The answer is there in the first round. -/
def synAckRound : ListenRound where
  others := id
  order := [synAck.key]
  items := fun key => if key = synAck.key then some synAckReceived else none

/-- The answer is taken up, and the connection stays. -/
theorem listen_delivers_synAck : ∃ taken t,
    listenResponseSockets defaultLayers [synAckRound] synAckListened = .ok (taken, t) ∧
      takenFrom synAck.key taken = [((5, ⟨none, 9⟩), synAckReceived)] ∧
      t.table synAck.key = some (5, ⟨none, 9⟩) := by
  have hvisits : Visits (takeUp defaultLayers) [synAckRound] synAckListened := by
    refine ⟨List.nodup_singleton _, ?_, fun _ _ _ => trivial⟩
    intro key
    change key ∈ [synAck.key] ↔ (if key = synAck.key then some (5, _) else none).isSome
    rw [List.mem_singleton]
    split
    · next hkey => exact iff_of_true hkey rfl
    · next hkey => exact iff_of_false hkey Bool.false_ne_true
  have harrive : ∀ round ∈ [synAckRound], ∀ key received, round.items key = some received →
      ArrivesFor key received := by
    intro round hround key received hitem
    rw [List.mem_singleton.mp hround] at hitem
    change (if key = synAck.key then some synAckReceived else none) = some received at hitem
    split at hitem
    · next hkey =>
      cases hitem
      exact ⟨synAck, hkey.symm, rfl, synAck_wellFormed.toFits⟩
    · cases hitem
  obtain ⟨taken, t, hrun, hkeys, -⟩ := listen_delivers calculatedChecksums_writes 88
    (s := synAckListened) (initial_defaultConfig .increasing) hvisits harrive
  obtain ⟨htaken, htable⟩ := hkeys synAck.key fun round hround table => by
    rw [List.mem_singleton.mp hround]
    rfl
  have hitem : synAckRound.items synAck.key = some synAckReceived := by simp [synAckRound]
  have hentry : synAckListened.table synAck.key = some (5, ⟨none, 9⟩) := by
    simp [synAckListened]
  have hstays : synAckReceived.resets = false :=
    synAck_wellFormed.toFits.resets rfl
  refine ⟨taken, t, hrun, ?_, ?_⟩
  · rw [htaken, hentry, List.map_singleton, hitem]
    simp [takenUntil, hstays]
  · rw [htable, hentry, List.any_cons, hitem]
    simp [hstays]

end QVPN
