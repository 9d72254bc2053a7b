import QVPN.Properties.ManagerSides
import QVPN.Properties.ResponseEntries
import QVPN.Properties.ReturnPath

/-!
# Captured packets and the answers to them

The two directions of the tunnel meet in the table of response sockets. The entries that come into
it while the thread of a client runs are for the packets that the client captured, and they lead back
to the client. An answer that the server takes up through such an entry is injected on the client's
side at the address and the port that a captured packet came from.
-/

namespace QVPN

open Memory QVPNLayersSettings QVPNPacketManager RequestState

section Sides

variable {layers : QVPNLayersSettings}

/-- Encoding leaves the builders alone. -/
theorem encodeData_receivingSide {m m' : QVPNPacketManager} {proxy : QTunnelProxy}
    {payload : List UByte} {packet : SplittedPacket}
    (h : encodeData layers m proxy payload = .ok (packet, m')) :
    m'.receivingSide = m.receivingSide := by
  obtain ⟨e, he⟩ | ⟨packet', s', hs⟩ := encodeData_ofSides layers m.sendingSide proxy payload
  · cases h.symm.trans (he m.receivingSide)
  · cases h.symm.trans (hs m.receivingSide)
    rfl

/-- Capturing leaves the builders alone. -/
theorem outgoingCaptureLoop_receivingSide {cred : Credentials} {m m' : QVPNPacketManager}
    {captures : List (Option Captured × SendOutcome)} {calls : List SocketCall}
    (h : outgoingCaptureLoop cred layers m captures = .ok (calls, m')) :
    m'.receivingSide = m.receivingSide := by
  induction captures generalizing m calls with
  | nil =>
    cases Except.ok.inj h
    rfl
  | cons capture captures ih =>
    obtain ⟨captured, net⟩ := capture
    cases captured with
    | none => exact ih h
    | some c =>
      obtain ⟨⟨proxy, payload⟩, -, h⟩ := bind_eq_ok_iff.mp h
      obtain ⟨⟨calls', m₁⟩, hsend, h⟩ := bind_eq_ok_iff.mp h
      obtain ⟨⟨rest, m₂⟩, hlater, h⟩ := bind_eq_ok_iff.mp h
      cases Except.ok.inj h
      obtain ⟨⟨packet, m₃⟩, hencode, hsend⟩ := bind_eq_ok_iff.mp hsend
      obtain ⟨_, -, hsend⟩ := bind_eq_ok_iff.mp hsend
      cases Except.ok.inj hsend
      rw [ih hlater, encodeData_receivingSide hencode]

/-- Decoding leaves the sizes and the ids alone. -/
theorem decodeData_sendingSide {m m' : QVPNPacketManager} {record : List UByte}
    {packet : Option QTunnelData} (h : decodeData layers m record = .ok (packet, m')) :
    m'.sendingSide = m.sendingSide := by
  obtain ⟨e, he⟩ | ⟨packet', r', hr⟩ := decodeData_ofSides layers m.receivingSide record
  · cases h.symm.trans (he m.sendingSide)
  · cases h.symm.trans (hr m.sendingSide)
    rfl

/-- Handling requests leaves the sizes and the ids alone. -/
theorem handleRecords_sendingSide {client : Fd} {items : List (List UByte × RequestOutcome)}
    {s s' : RequestState} {goes : Bool}
    (h : handleRecords layers client items s = .ok (goes, s')) :
    s'.manager.sendingSide = s.manager.sendingSide := by
  induction items generalizing s with
  | nil =>
    cases Except.ok.inj h
    rfl
  | cons item items ih =>
    obtain ⟨⟨exit, s₁⟩, hround, h⟩ := bind_eq_ok_iff.mp h
    obtain ⟨packet, hdecode, -⟩ := requestRound_cases hround
    have hside := decodeData_sendingSide hdecode
    dsimp only at h
    split at h
    · cases Except.ok.inj h
      exact hside
    · rw [ih h, hside]

/-- The sizes of a split stay the default ones. -/
theorem handleRecords_defaultConfig {client : Fd} {items : List (List UByte × RequestOutcome)}
    {s s' : RequestState} {goes : Bool}
    (h : handleRecords layers client items s = .ok (goes, s')) (hm : s.manager.DefaultConfig) :
    s'.manager.DefaultConfig := by
  have hside := handleRecords_sendingSide h
  exact ⟨(congrArg SendingSide.dataMaxSize hside).trans hm.max_size,
    (congrArg SendingSide.dataSplitSize hside).trans hm.split_size⟩

end Sides

/-- An answer that is taken up through an entry which came into the table. -/
structure Answers (before after : ResponseSockets) (r : Response) : Prop where
  new : before r.key = none
  listened : (after r.key).isSome
  reply : r.reply.WellFormed
  tcp : r.reply.proto = .TCP
  readable : r.reply.OptionsReadable
  size : r.reply.payload.length < 65229

/-- An answer is on the connection of a captured packet, and it is injected at the address and the
port that this packet came from. -/
structure ReachesSender (sizeofView : ℕ) (d : Datagram) (r : Response) (send : WinDivertSend) :
    Prop where
  connection : ∃ addr, r.key = { d.tunnelled.key with serverLocalAddr := addr }
  returned : r.returned = { r.reply.tunnelled with
    dstAddr := d.tunnelled.sourceAddr, dstPort := d.tunnelled.sourcePort }
  injected : Returns sizeofView r send

section Answered

variable {before after : Connections} {client : Fd} {packets : List Datagram}
  {sends : List ForwardedPacket} (hlistens : before.Listens client after sends)
  (htranslates : List.Forall₂ (Translates after) packets sends)
include hlistens htranslates

/-- An entry that came into the table is for a captured packet. -/
theorem connection_of_entry {key : QVPNServerSocketData} (hnew : before.responseSockets key = none)
    (hentry : (after.responseSockets key).isSome) :
    ∃ d ∈ packets, ∃ addr, key = { d.tunnelled.key with serverLocalAddr := addr } := by
  obtain ⟨⟨fd, socket⟩, hentry⟩ := Option.isSome_iff_exists.mp hentry
  obtain hold | ⟨-, send, hsend, rfl, -⟩ := hlistens.entries key fd socket hentry
  · rw [hnew] at hold
    cases hold
  · obtain ⟨i, hi, rfl⟩ := List.getElem_of_mem hsend
    have hlength := htranslates.length_eq
    have hkey := (htranslates.get (by omega) hi).carries.key
    exact ⟨packets[i], List.getElem_mem _, hkey⟩

/-- An answer that is taken up through an entry can go back to the client. -/
theorem Answers.wellFormed {r : Response}
    (h : Answers before.responseSockets after.responseSockets r)
    (hpackets : ∀ d ∈ packets, d.WellFormed) : r.WellFormed := by
  obtain ⟨d, hd, addr, hkey⟩ := connection_of_entry hlistens htranslates h.new h.listened
  refine ⟨⟨h.reply, h.readable, h.size, ?_⟩, h.tcp⟩
  have hlength := (hpackets d hd).net_length
  rw [hkey]
  change ((d.net.drop 12).take 4).length = 4
  rw [List.length_take, List.length_drop]
  omega

/-- What is injected for it goes to where a captured packet came from. -/
theorem Answers.reachesSender {sizeofView : ℕ} {r : Response}
    (h : Answers before.responseSockets after.responseSockets r)
    {send : WinDivertSend} (hreturns : Returns sizeofView r send) :
    ∃ d ∈ packets, ReachesSender sizeofView d r send := by
  obtain ⟨d, hd, addr, hkey⟩ := connection_of_entry hlistens htranslates h.new h.listened
  refine ⟨d, hd, ⟨addr, hkey⟩, ?_, hreturns⟩
  rw [Response.returned, hkey]
  rfl

end Answered

/-- A whole conversation over the tunnel: for every run of the capture loop, every run of a new
thread of the server over the records that arrive, and every list of answers that the server takes up
through the entries that came into the table. The entries lead to the client; each packet that was
handed over has one, unless a packet on its connection ended it; and each answer is injected at the
address and the port of a packet on whose connection it came. -/
theorem answers_reach_senders (cred : Credentials) {calcChecksums : List UByte → List UByte}
    (hcalc : WritesChecksums calcChecksums) (sizeofView : ℕ) {client : QVPNPacketManager}
    (hclient : client.DefaultConfig) (hempty : client.Empty) (hcached : client.cached = none)
    {captures : List (Option Captured × SendOutcome)} {items : List (Datagram × SendOutcome)}
    (hcaptures : Captures captures items) :
    ∃ calls client' records later,
      outgoingCaptureLoop cred defaultLayers client captures = .ok (calls, client') ∧
      connections true calls = (true, records) :: later ∧
      ∀ (fd : Fd) (s s' : RequestState) (goes : Bool) (nets : List RequestOutcome),
        s.manager.Empty → s.manager.cached = none → s.manager.DefaultConfig →
        (∀ key, s.connections.sockMap key = none) → nets.length = records.length →
        handleRecords defaultLayers fd (records.zip nets) s = .ok (goes, s') →
        ∃ handed lost sends, beforeFailure items = handed ++ lost ∧
          List.Forall₂ (Translates s'.connections) handed sends ∧
          s.connections.Listens fd s'.connections sends ∧
          (∀ send ∈ sends, (s'.connections.responseSockets send.key).isSome ∨
            ∃ other ∈ sends, other.key = send.key ∧ other.Resets) ∧
          ∀ responses, (∀ r ∈ responses,
              Answers s.connections.responseSockets s'.connections.responseSockets r) →
            ∃ answers, respond s'.manager responses = .ok answers ∧
              ∀ carriers, List.Forall₂ Carrier carriers answers →
                ∃ injected, incomingCaptures calcChecksums sizeofView client' carriers =
                    .ok (injected.map some, client') ∧
                  List.Forall₂ (fun r send => ∃ d ∈ handed,
                    ReachesSender sizeofView d r send) responses injected := by
  obtain ⟨calls, client', packets, later, hcalls, hconnections, hfirst, hsend, hdatagrams⟩ :=
    hcaptures.records cred hclient
  refine ⟨calls, client', recordsOf packets, later, hcalls, hconnections, ?_⟩
  intro fd s s' goes nets hserver hsettled hconfig hsockets hlength hrun
  obtain ⟨handed, lost, sends, hsplit, hsends, htranslates, -⟩ :=
    handleRecords_translates hdatagrams hfirst hsend hserver hsettled
      (List.map_fst_zip (Nat.le_of_eq hlength.symm)) hrun
  obtain ⟨sends', hlistens⟩ := handleRecords_listens hrun
  cases List.append_cancel_left (hsends.symm.trans hlistens.sends_eq)
  refine ⟨handed, lost, sends, hsplit, htranslates, hlistens, ?_, ?_⟩
  · intro send hmem
    apply hlistens.kept send.key
    · intro hheld
      rw [hsockets] at hheld
      cases hheld
    · obtain ⟨i, hi, rfl⟩ := List.getElem_of_mem hmem
      have hcount := htranslates.length_eq
      obtain ⟨shadow, hsocket⟩ := (htranslates.get (by omega) hi).carries.socket
      exact Option.isSome_of_eq_some hsocket
  · intro responses hanswers
    have hhanded : ∀ d ∈ handed, d.WellFormed := by
      intro d hd
      apply hdatagrams
      rw [hsplit]
      exact List.mem_append_left _ hd
    have hwellFormed : ∀ r ∈ responses, r.WellFormed := fun r hr =>
      (hanswers r hr).wellFormed hlistens htranslates hhanded
    have hbuilders := outgoingCaptureLoop_receivingSide hcalls
    have hempty' : client'.Empty := fun id =>
      (congrFun (congrArg ReceivingSide.packets hbuilders) id).trans (hempty id)
    have hcached' : client'.cached = none :=
      (congrArg ReceivingSide.cached hbuilders).trans hcached
    refine ⟨_, respond_eq (handleRecords_defaultConfig hrun hconfig) hwellFormed, ?_⟩
    intro carriers hcarriers
    obtain ⟨injected, hinjected, hreturns⟩ :=
      incomingCaptures_returns sizeofView hcalc hempty' hcached' hwellFormed hcarriers
    refine ⟨injected, hinjected, ?_⟩
    have hboth := (List.forall₂_and_left _ _).mpr ⟨hanswers, hreturns⟩
    exact hboth.imp fun r send h => h.1.reachesSender hlistens htranslates h.2

/-- A connection request goes out, its answer is taken up, and it is injected for the sender of the
request. -/
theorem answers_reach_senders_synAck : ∃ client' injected,
    incomingCaptures calculatedChecksums 88 client' [⟨synAckSegment.bytes ++ [0], 81⟩] =
        .ok (injected.map some, client') ∧
      List.Forall₂ (fun r send => ReachesSender 88 synDatagram r send) [synAck] injected := by
  have hcaptures : Captures [(some ⟨capturedSyn ++ [0], 40⟩, answers true)]
      [(synDatagram, answers true)] :=
    .packet _ synCaptured_holds synDatagram_wellFormed
      (fun _ _ _ hlt => absurd hlt (Nat.not_lt_zero _)) (Or.inl (by decide)) (Or.inl (by decide))
      .nil
  obtain ⟨calls, client', records, later, hcalls, hconnections, hrun⟩ :=
    answers_reach_senders guest calculatedChecksums_writes 88 (initial_defaultConfig .increasing)
      (initial_empty .increasing) rfl hcaptures
  have hcomputed : (outgoingCaptureLoop guest defaultLayers (initial .increasing)
      [(some ⟨capturedSyn ++ [0], 40⟩, answers true)]).map Prod.fst =
        .ok [.send synRecord true] := rfl
  rw [hcalls] at hcomputed
  cases Except.ok.inj hcomputed
  cases hconnections
  have hhandle : ∃ s', handleRecords defaultLayers 5 [(synRecord, RequestState.connected)]
      RequestState.fresh = .ok (true, s') := ⟨_, rfl⟩
  obtain ⟨s', hhandle⟩ := hhandle
  have hlistened : (handleRecords defaultLayers 5 [(synRecord, RequestState.connected)]
      RequestState.fresh).map (fun r => (r.2.connections.responseSockets synAck.key).isSome) =
        .ok true := rfl
  rw [hhandle] at hlistened
  obtain ⟨handed, lost, sends, hsplit, -, -, -, hanswer⟩ := hrun 5 RequestState.fresh s' true
    [RequestState.connected] (initial_empty _) rfl (initial_defaultConfig _) (fun _ => rfl) rfl
    hhandle
  have hanswers : ∀ r ∈ [synAck], Answers RequestState.fresh.connections.responseSockets
      s'.connections.responseSockets r := by
    intro r hr
    obtain rfl := List.mem_singleton.mp hr
    exact ⟨rfl, Except.ok.inj hlistened, synAck_wellFormed.reply, synAck_wellFormed.tcp,
      synAck_wellFormed.readable, synAck_wellFormed.size⟩
  obtain ⟨answered, hrespond, hinject⟩ := hanswer [synAck] hanswers
  have hrecords : respond s'.manager [synAck] = .ok ([synAck].map Response.record) :=
    respond_eq (handleRecords_defaultConfig hhandle (initial_defaultConfig _))
      (by simpa using synAck_wellFormed)
  cases hrecords.symm.trans hrespond
  obtain ⟨injected, hinjected, hreaches⟩ := hinject _ (.cons synAckSegment_carrier .nil)
  refine ⟨client', injected, hinjected, hreaches.imp ?_⟩
  intro r send h
  obtain ⟨d, hd, hreach⟩ := h
  have hall : beforeFailure [(synDatagram, answers true)] = [synDatagram] := rfl
  have hmem : d ∈ beforeFailure [(synDatagram, answers true)] := by
    rw [hsplit]
    exact List.mem_append_left _ hd
  rw [hall, List.mem_singleton] at hmem
  rwa [← hmem]

end QVPN
