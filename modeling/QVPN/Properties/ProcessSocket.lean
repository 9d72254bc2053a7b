import QVPN.Driver.ProcessSocket
import QVPN.Properties.Framing
import QVPN.Properties.ReceiveLoop
import QVPN.Properties.RequestLoop

/-!
# A client's thread from its first record to its last

The pieces in which a record arrives are received one after the other, and receives may fail in
between. As long as no piece spans two records and fewer than twenty receives fail while a record is
waited for, an iteration of the thread has exactly one record, and what makes the request loop return
early loses nothing.

Then every record is decoded, in order, and every packet that becomes complete is handed over, except
for one: a packet whose connection has no socket ends the thread.
-/

namespace QVPN

open InputLoop Memory QVPNPacketManager RequestState SafeReceiveData SafeRecvState

/-- The first receives bring a record, in pieces; the last of them brings the last piece. -/
structure Arrives (received : ℕ → ReceiveData) (record : List UByte) (n : ℕ) : Prop where
  wellFormed : TLS13Record.WellFormed record
  pieces : (buffers received (n + 1)).flatten = record
  nonempty : ∀ piece ∈ buffers received (n + 1), piece ≠ []
  last : (received n).status.success = true
  tries : failures received (n + 1) < 20

/-- The receives from a position on bring records, one after the other. -/
inductive Stream (received : ℕ → ReceiveData) : ℕ → List (List UByte) → Prop where
  | nil (p : ℕ) : Stream received p []
  | cons {p n : ℕ} {record : List UByte} {records : List (List UByte)}
    (first : Arrives (fun k => received (p + k)) record n)
    (later : Stream received (p + (n + 1)) records) : Stream received p (record :: records)

section Receive

variable {received : ℕ → ReceiveData} {record : List UByte} {n : ℕ}

/-- Framing waits until the pieces are a whole record. -/
theorem framed_pieces {pieces : List (List UByte)} {more : List UByte}
    (hrecord : TLS13Record.WellFormed record) (hcut : pieces.flatten ++ more = record)
    (hmore : more ≠ []) : pieces = [] ∨ ∃ s, framed addObjectsAndValidate empty pieces =
      .ok (.SFR_WAIT_DATA, s) ∧ s.Awaiting [] [] pieces.flatten := by
  induction pieces using List.reverseRecOn generalizing more with
  | nil => exact Or.inl rfl
  | append_singleton pieces piece ih =>
    refine Or.inr ?_
    have hpos := List.length_pos_iff.mpr hmore
    rw [List.flatten_append, List.flatten_singleton] at hcut ⊢
    have hlength := congrArg List.length hcut
    rw [List.length_append] at hlength
    rw [framed_append]
    have hearlier : pieces.flatten ++ (piece ++ more) = record := by
      rw [← List.append_assoc]
      exact hcut
    obtain rfl | ⟨s, hframed, hs⟩ := ih hearlier (by simp [hmore])
    · rw [List.flatten_nil, List.nil_append] at hcut hlength ⊢
      obtain ⟨hpart, -, -⟩ := parseData_first hrecord
        (show piece ++ more = record ++ [] by rw [hcut, List.append_nil])
      exact hpart (by omega)
    · obtain ⟨hpart, -, -⟩ := hs.step hrecord
        (show pieces.flatten ++ piece ++ more = record ++ [] by rw [hcut, List.append_nil])
      rw [hframed, ok_bind]
      exact hpart (by omega)

/-- The last piece makes the data full, and the record is its only object. -/
theorem framed_record {pieces : List (List UByte)} {piece : List UByte}
    (hrecord : TLS13Record.WellFormed record) (hcut : (pieces ++ [piece]).flatten = record)
    (hpiece : piece ≠ []) : ∃ s, framed addObjectsAndValidate empty (pieces ++ [piece]) =
      .ok (.SFR_FULL_DATA, s) ∧ s.objects = .ok [record] := by
  rw [List.flatten_append, List.flatten_singleton] at hcut
  rw [framed_append]
  obtain rfl | ⟨s, hframed, hs⟩ := framed_pieces hrecord hcut hpiece
  · rw [List.flatten_nil, List.nil_append] at hcut
    obtain ⟨-, hcomplete, -⟩ := parseData_first hrecord (show piece ++ [] = record ++ [] by rw [hcut])
    obtain ⟨s, hparse, hs⟩ := hcomplete (by rw [hcut])
    exact ⟨s, hparse, hs.objects rfl⟩
  · obtain ⟨-, hcomplete, -⟩ := hs.step hrecord
      (show pieces.flatten ++ piece ++ [] = record ++ [] by rw [hcut])
    obtain ⟨s', hstep, hs'⟩ := hcomplete (by rw [hcut])
    exact ⟨s', by rw [hframed, ok_bind]; exact hstep, hs'.objects rfl⟩

/-- What fewer receives bring is the front of what more of them bring. -/
theorem buffers_prefix (received : ℕ → ReceiveData) {m n : ℕ} (h : m ≤ n) :
    buffers received m <+: buffers received n := by
  induction h with
  | refl => exact List.prefix_refl _
  | step _ ih =>
    rw [buffers]
    split
    · exact ih.trans (List.prefix_append _ _)
    · exact ih

/-- The receive loop returns with the record when its last piece is there. -/
theorem Arrives.safeRecv (h : Arrives received record n) : ∃ fuel₀ state,
    (∀ fuel, fuel₀ ≤ fuel → QVPNSocket.safeRecv addObjectsAndValidate empty received fuel =
      .ok (state, n + 1)) ∧ state.status.success = true ∧ state.data.objects = .ok [record] := by
  have hbuffers : buffers received (n + 1) = buffers received n ++ [(received n).data] := by
    rw [buffers, if_pos h.last]
  have hpieces := h.pieces
  rw [hbuffers] at hpieces
  have hpiece := h.nonempty (received n).data (by rw [hbuffers]; simp)
  obtain ⟨data, hfull, hobjects⟩ := framed_record h.wellFormed hpieces hpiece
  rw [← hbuffers] at hfull
  have hreturns : Returns continues (receive addObjectsAndValidate) received (start empty)
      (stateAfter received (n + 1) (.SFR_FULL_DATA, data)) (n + 1) := by
    refine returns_iff.mpr ⟨?_, ?_, ?_⟩
    · rw [after_eq, hfull]
      rfl
    · rw [← Bool.not_eq_true, stateAfter_continues_iff, not_not]
      exact ⟨rfl, h.tries⟩
    · intro m hm
      apply (goesOnAt_iff m).mp
      obtain ⟨later, hlater⟩ := buffers_prefix received (show m ≤ n by omega)
      rw [← hlater, List.append_assoc, List.flatten_append] at hpieces
      obtain hnone | ⟨s, hwait, -⟩ := framed_pieces h.wellFormed hpieces (by simp [hpiece])
      · rw [GoesOnAt, hnone]
        exact ⟨_, rfl, fun hstop => by cases hstop.1⟩
      · exact ⟨_, hwait, fun hstop => by cases hstop.1⟩
  obtain ⟨fuel₀, hrun⟩ := hreturns
  exact ⟨fuel₀, _, fun fuel hfuel => run_mono hfuel hrun, h.last, hobjects⟩

end Receive

/-- The thread over records that are received one by one: the first packet without a socket ends
it. -/
def handleRecords (layers : QVPNLayersSettings) (client : Fd) :
    List (List UByte × RequestOutcome) → RequestState → Except Fault (Bool × RequestState)
  | [], s => .ok (true, s)
  | (record, net) :: rest, s => do
    let (exit, s) ← requestRound layers client net s record
    if exit = some false then return (false, s) else handleRecords layers client rest s

/-- An iteration that has one record is one round. -/
theorem vpnRequestLoopIteration_record {layers : QVPNLayersSettings} {client : Fd}
    {net : ℕ → RequestOutcome} {received : SafeReceiveData} {record : List UByte}
    (h : received.objects = .ok [record]) (s : RequestState) :
    vpnRequestLoopIteration layers client net received s = (do
      let (exit, s) ← requestRound layers client (net 0) s record
      return (exit.getD true, s)) := by
  have hnum := mapM_length h
  rw [List.length_range, List.length_singleton] at hnum
  rw [vpnRequestLoopIteration, requestLoop_eq h, ← hnum]
  change requestRecords layers client [(record, net 0)] s = _
  rw [requestRecords]
  congr 1
  funext round
  obtain ⟨exit, s₁⟩ := round
  cases exit with
  | none => rfl
  | some result => rfl

/-- The iterations of the thread are the rounds of its records. -/
theorem processSocket_eq {received : ℕ → ReceiveData} {p : ℕ} {records : List (List UByte)}
    (h : Stream received p records) (layers : QVPNLayersSettings) (client : Fd)
    (net : ℕ → ℕ → RequestOutcome) : ∃ fuel₀ nets, nets.length = records.length ∧
      (∀ o ∈ nets, ∃ k, o = net k 0) ∧ ∀ fuel, fuel₀ ≤ fuel → ∀ s,
        (processSocket layers client net received fuel records.length p s).map
          (fun r => (r.1, r.2.2)) = handleRecords layers client (records.zip nets) s := by
  induction h with
  | nil p => exact ⟨0, [], rfl, by simp, fun _ _ _ => rfl⟩
  | @cons p n record records first later ih =>
    obtain ⟨fuel₁, state, hreceive, hsuccess, hobjects⟩ := first.safeRecv
    obtain ⟨fuel₂, nets, hlength, hnets, hlater⟩ := ih
    refine ⟨max fuel₁ fuel₂, net p 0 :: nets, by rw [List.length_cons, List.length_cons, hlength],
      List.forall_mem_cons.mpr ⟨⟨p, rfl⟩, hnets⟩, ?_⟩
    intro fuel hfuel s
    have hrest := hlater fuel (by omega)
    rw [List.length_cons, List.zip_cons_cons, processSocket, hreceive fuel (by omega), ok_bind]
    dsimp only
    rw [handleReceived, if_neg (by rw [hsuccess]; decide), vpnRequestLoopIteration_record hobjects,
      handleRecords]
    cases requestRound layers client (net p 0) s record with
    | error fault => rfl
    | ok round =>
      obtain ⟨exit, s₁⟩ := round
      rw [ok_bind, ok_bind, pure_bind]
      dsimp only
      cases exit with
      | none => exact hrest s₁
      | some result =>
        cases result with
        | true => exact hrest s₁
        | false => rfl

/-- There is no socket under the key that a packet got when a connection was tried for it, and trying
made none. -/
structure NoSocket (c : Connections) (net : ConnectOutcome) (packet : QTunnelData) : Prop where
  missing : c.sockMap { packet.key with serverLocalAddr := net.serverAddr } = none
  failed : net.rawSocket = none ∨ net.bound = false ∨ net.connected = false

/-- A packet is left over when there is no socket for it. -/
theorem noSocket_of_forwardPacket {c c' : Connections} {net : ConnectOutcome} {client : Fd}
    {packet : QTunnelData} (h : c.forwardPacket net client packet = .ok (none, c')) :
    NoSocket c' net packet := by
  have hkey := c.connectIfNotToServer_key net client packet
  unfold Connections.forwardPacket at h
  generalize hconnect : c.connectIfNotToServer net client packet = connected at h hkey
  obtain ⟨key, c₁⟩ := connected
  dsimp only at h hkey
  cases hsocket : c₁.sockMap key with
  | none =>
    rw [hsocket] at h
    cases Except.ok.inj h
    exact ⟨hkey ▸ hsocket, Connections.connectIfNotToServer_failed hconnect hsocket⟩
  | some serverSocket =>
    rw [hsocket] at h
    obtain ⟨_, -, h⟩ := bind_eq_ok_iff.mp h
    obtain ⟨_, -, h⟩ := bind_eq_ok_iff.mp h
    cases Except.ok.inj h

/-- What a round does with what it decoded: nothing is complete; or a packet finds no socket; or it is
handed over. -/
inductive RoundResult (net : ConnectOutcome) (c c' : Connections) :
    Option QTunnelData → Option Bool → Prop where
  | incomplete {exit : Option Bool} (goes : exit ≠ some false) (same : c'.sends = c.sends) :
    RoundResult net c c' none exit
  | noSocket {packet : QTunnelData} (same : c'.sends = c.sends) (nowhere : NoSocket c' net packet) :
    RoundResult net c c' (some packet) (some false)
  | handed {packet : QTunnelData} {exit : Option Bool} {send : ForwardedPacket}
    (goes : exit ≠ some false) (sends : c'.sends = c.sends ++ [send])
    (carries : c'.Carries packet send) : RoundResult net c c' (some packet) exit

/-- What a round comes to, when it does not fault. -/
theorem requestRound_cases {layers : QVPNLayersSettings} {client : Fd} {net : RequestOutcome}
    {s s' : RequestState} {record : List UByte} {exit : Option Bool}
    (h : requestRound layers client net s record = .ok (exit, s')) :
    ∃ packet, decodeData layers s.manager record = .ok (packet, s'.manager) ∧
      s'.decoded = s.decoded ++ [record] ∧
      RoundResult net.connect s.connections s'.connections packet exit := by
  have hround := h
  unfold requestRound at h
  obtain ⟨⟨packet, manager⟩, hdecode, h⟩ := bind_eq_ok_iff.mp h
  cases packet with
  | none =>
    cases Except.ok.inj h
    exact ⟨none, hdecode, rfl, .incomplete (by decide) rfl⟩
  | some p =>
    obtain ⟨⟨sent, c⟩, hforward, h⟩ := bind_eq_ok_iff.mp h
    obtain ⟨-, ⟨rfl, hsends⟩ | ⟨key, object, send, rfl, hsends, -, -⟩⟩ :=
      Connections.forwardPacket_cases hforward
    · cases Except.ok.inj h
      exact ⟨some p, hdecode, rfl, .noSocket hsends (noSocket_of_forwardPacket hforward)⟩
    · have hhanded (goes : exit ≠ some false) (hsame : s'.connections.sends = c.sends) :
          RoundResult net.connect s.connections s'.connections (some p) exit :=
        .handed goes (hsame.trans hsends) (requestRound_carries hdecode hround (hsame.trans hsends))
      dsimp only at h
      split at h
      · cases Except.ok.inj h
        exact ⟨some p, hdecode, rfl, hhanded (by decide) rfl⟩
      · obtain ⟨reset, -, h⟩ := bind_eq_ok_iff.mp h
        cases reset with
        | true =>
          cases Except.ok.inj h
          exact ⟨some p, hdecode, rfl, hhanded (by decide) rfl⟩
        | false =>
          cases Except.ok.inj h
          exact ⟨some p, hdecode, rfl, hhanded (by decide) rfl⟩

/-- What the thread has done once it has decoded so many records: they all led to what was to be done
about them, unless the last of them was a packet without a socket. -/
structure HandledUpTo (layers : QVPNLayersSettings) (s s' : RequestState) (goes : Bool)
    (done : List (List UByte × RequestOutcome)) (packets : List (Option QTunnelData))
    (sends : List ForwardedPacket) : Prop where
  decoded : s'.decoded = s.decoded ++ done.map Prod.fst
  decode : decodeRecords layers s.manager (done.map Prod.fst) = .ok (packets, s'.manager)
  sends_eq : s'.connections.sends = s.connections.sends ++ sends
  carries : if goes then List.Forall₂ s'.connections.Carries packets.reduceOption sends
    else ∃ handed lost earlier record net, packets.reduceOption = handed ++ [lost] ∧
      List.Forall₂ s'.connections.Carries handed sends ∧ done = earlier ++ [(record, net)] ∧
      NoSocket s'.connections net.connect lost

/-- The thread takes nothing back. -/
theorem handleRecords_extends {layers : QVPNLayersSettings} {client : Fd}
    {items : List (List UByte × RequestOutcome)} {s s' : RequestState} {goes : Bool}
    (h : handleRecords layers client items s = .ok (goes, s')) :
    s.connections.Extends s'.connections := by
  induction items generalizing s with
  | nil =>
    cases Except.ok.inj h
    exact Connections.Extends.refl _
  | cons item items ih =>
    obtain ⟨⟨exit, s₁⟩, hround, h⟩ := bind_eq_ok_iff.mp h
    have hs₁ := requestRound_extends hround
    dsimp only at h
    split at h
    · cases Except.ok.inj h
      exact hs₁
    · exact hs₁.trans (ih h)

/-- The thread decodes its records one after the other, until a packet has no socket. -/
theorem handleRecords_handled {layers : QVPNLayersSettings} {client : Fd}
    {items : List (List UByte × RequestOutcome)} {s s' : RequestState} {goes : Bool}
    (h : handleRecords layers client items s = .ok (goes, s')) :
    ∃ done packets sends, done <+: items ∧ (goes = true → done = items) ∧
      HandledUpTo layers s s' goes done packets sends := by
  induction items generalizing s with
  | nil =>
    cases Except.ok.inj h
    exact ⟨[], [], [], List.prefix_refl _, fun _ => rfl, by simp, rfl, by simp, .nil⟩
  | cons item items ih =>
    obtain ⟨record, net⟩ := item
    obtain ⟨⟨exit, s₁⟩, hround, h⟩ := bind_eq_ok_iff.mp h
    obtain ⟨packet, hdecode, hdecoded, hresult⟩ := requestRound_cases hround
    dsimp only at h
    by_cases hexit : exit = some false
    · rw [if_pos hexit] at h
      cases Except.ok.inj h
      refine ⟨[(record, net)], [packet], [], ⟨_, rfl⟩, fun hgoes => absurd hgoes (by decide),
        hdecoded, ?_, ?_, ?_⟩
      · rw [List.map_cons, decodeRecords, hdecode]
        rfl
      · cases hresult with
        | incomplete goes => exact absurd hexit goes
        | noSocket same => rw [same, List.append_nil]
        | handed goes => exact absurd hexit goes
      · cases hresult with
        | incomplete goes => exact absurd hexit goes
        | noSocket _ nowhere => exact ⟨[], _, [], record, net, rfl, .nil, rfl, nowhere⟩
        | handed goes => exact absurd hexit goes
    · rw [if_neg hexit] at h
      obtain ⟨done, packets, sends, hprefix, hall, hhandled⟩ := ih h
      have hext := handleRecords_extends h
      have hdecodes : decodeRecords layers s.manager (((record, net) :: done).map Prod.fst) =
          .ok (packet :: packets, s'.manager) := by
        rw [List.map_cons, decodeRecords, hdecode, ok_bind]
        dsimp only
        rw [hhandled.decode]
        rfl
      have hdone : s'.decoded = s.decoded ++ ((record, net) :: done).map Prod.fst := by
        rw [hhandled.decoded, hdecoded, List.append_assoc]
        rfl
      have hprefix' : (record, net) :: done <+: (record, net) :: items :=
        List.cons_prefix_cons.mpr ⟨rfl, hprefix⟩
      have hall' (hgoes : goes = true) : (record, net) :: done = (record, net) :: items := by
        rw [hall hgoes]
      cases hresult with
      | noSocket => exact absurd rfl hexit
      | incomplete _ same =>
        refine ⟨_, _, sends, hprefix', hall', hdone, hdecodes, by rw [hhandled.sends_eq, same], ?_⟩
        have hlater := hhandled.carries
        cases goes with
        | true => exact hlater
        | false =>
          obtain ⟨handed, lost, earlier, last, lastNet, hpackets, hforall, rfl, hnone⟩ := hlater
          exact ⟨handed, lost, (record, net) :: earlier, last, lastNet, hpackets, hforall, rfl, hnone⟩
      | @handed p _ send _ hsends hcarries =>
        refine ⟨_, _, send :: sends, hprefix', hall', hdone, hdecodes, ?_, ?_⟩
        · rw [hhandled.sends_eq, hsends, List.append_assoc]
          rfl
        · have hcarries' := hcarries.mono hext
          have hlater := hhandled.carries
          have hreduce : (some p :: packets).reduceOption = p :: packets.reduceOption := rfl
          rw [hreduce]
          cases goes with
          | true => exact .cons hcarries' hlater
          | false =>
            obtain ⟨handed, lost, earlier, last, lastNet, hpackets, hforall, rfl, hnone⟩ := hlater
            exact ⟨p :: handed, lost, (record, net) :: earlier, last, lastNet, by rw [hpackets]; rfl,
              .cons hcarries' hforall, rfl, hnone⟩

/-- Of records that arrive one by one the thread loses none, whatever else fails: it decodes them in
order and hands over every packet, and it ends only at a packet for which there is no socket. -/
theorem processSocket_handles (layers : QVPNLayersSettings) (client : Fd)
    (net : ℕ → ℕ → RequestOutcome) {received : ℕ → ReceiveData} {records : List (List UByte)}
    (hstream : Stream received 0 records) (s : RequestState) :
    ∃ fuel₀ nets, nets.length = records.length ∧ (∀ o ∈ nets, ∃ k, o = net k 0) ∧
      ∀ fuel, fuel₀ ≤ fuel →
      (processSocket layers client net received fuel records.length 0 s).map
          (fun r => (r.1, r.2.2)) = handleRecords layers client (records.zip nets) s ∧
      ∀ goes used s', processSocket layers client net received fuel records.length 0 s =
          .ok (goes, used, s') →
        ∃ done packets sends, done <+: records.zip nets ∧ (goes = true → done = records.zip nets) ∧
          HandledUpTo layers s s' goes done packets sends := by
  obtain ⟨fuel₀, nets, hlength, hnets, hrun⟩ := processSocket_eq hstream layers client net
  refine ⟨fuel₀, nets, hlength, hnets, fun fuel hfuel => ⟨hrun fuel hfuel s, ?_⟩⟩
  intro goes used s' hok
  have hhandle := hrun fuel hfuel s
  rw [hok] at hhandle
  exact handleRecords_handled hhandle.symm

/-- A receive that fails, a query in two pieces, and a query in one. -/
def pieces : ℕ → ReceiveData
  | 0 => ⟨⟨false, 4⟩, []⟩
  | 1 => ⟨⟨true, 0⟩, queryRecord.take 7⟩
  | 2 => ⟨⟨true, 0⟩, queryRecord.drop 7⟩
  | _ + 3 => ⟨⟨true, 0⟩, queryRecord⟩

theorem pieces_stream : Stream pieces 0 [queryRecord, queryRecord] := by
  have hwellFormed : TLS13Record.WellFormed queryRecord :=
    ⟨[23, 3, 3], queryRecord.drop 5, by decide, rfl, by decide⟩
  exact .cons (n := 2) ⟨hwellFormed, by decide, by decide, rfl, by decide⟩
    (.cons (n := 0) ⟨hwellFormed, by decide, by decide, rfl, by decide⟩ (.nil _))

/-- Both queries go out. -/
theorem processSocket_handles_pieces : ∃ fuel s', ∃ done packets sends,
    (∃ used, processSocket QVPNLayersSettings.defaultLayers 5 (fun _ _ => connected) pieces fuel 2 0
      fresh = .ok (true, used, s')) ∧
    done = [(queryRecord, connected), (queryRecord, connected)] ∧
    HandledUpTo QVPNLayersSettings.defaultLayers fresh s' true done packets sends := by
  obtain ⟨fuel₀, nets, hlength, hnets, hrun⟩ := processSocket_handles
    QVPNLayersSettings.defaultLayers 5 (fun _ _ => connected) pieces_stream fresh
  obtain ⟨hsame, hhandled⟩ := hrun fuel₀ (Nat.le_refl _)
  obtain ⟨first, second, rfl⟩ := List.length_eq_two.mp hlength
  obtain ⟨-, rfl⟩ := hnets first (by simp)
  obtain ⟨-, rfl⟩ := hnets second (by simp)
  have hgoes : (handleRecords QVPNLayersSettings.defaultLayers 5
      [(queryRecord, connected), (queryRecord, connected)] fresh).map Prod.fst = .ok true := rfl
  rw [show [(queryRecord, connected), (queryRecord, connected)] =
    [queryRecord, queryRecord].zip [connected, connected] from rfl, ← hsame] at hgoes
  obtain ⟨pair, hpair, hfst⟩ := map_eq_ok_iff.mp hgoes
  obtain ⟨⟨goes, used, s'⟩, hresult, rfl⟩ := map_eq_ok_iff.mp hpair
  cases hfst
  obtain ⟨done, packets, sends, -, hall, hdone⟩ := hhandled true used s' hresult
  exact ⟨fuel₀, s', done, packets, sends, ⟨used, hresult⟩, hall rfl, hdone⟩

end QVPN
