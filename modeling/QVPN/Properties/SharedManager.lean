import QVPN.Lib.Run
import QVPN.Properties.RoundTrip

/-!
# Clients that share a packet manager

A server decodes the records of all its clients with one packet manager. Every client numbers
its packets on its own, and the server's loop of a client hands that client's records over in
the order in which they were sent. How the loops of several clients interleave is up to the
scheduler. A call of `decode_data` is one step here, although the threads take no lock around
`packet_manager_`: what two calls do to the manager at once is not modelled.

The manager knows packet ids and no clients, so a record meets whatever builder is held under
its id. As long as no record meets a builder that another client began, every loop returns
only packets of its own client.
-/

namespace QVPN

open Memory QVPNLayersSettings QVPNPacketManager

variable {Client : Type}

/-- The server's manager and, for each client, its own manager, the packets it sent, the records
that the server has not decoded yet and the packets its loop returned. For each builder, `begun`
names the client whose record started it. -/
structure Server (Client : Type) where
  manager : QVPNPacketManager
  begun : UByte → Option Client
  sender : Client → QVPNPacketManager
  sent : Client → List QTunnelData
  inFlight : Client → List (List UByte)
  returned : Client → List QTunnelData

inductive ServerAction (Client : Type) where
  | send (c : Client) (packet : QTunnelData)
  | decode (c : Client)

namespace Server

/-- Managers as they are constructed, and nothing sent. -/
def start (Client : Type) (order : IterationOrder) : Server Client where
  manager := initial order
  begun := fun _ => none
  sender := fun _ => initial order
  sent := fun _ => []
  inFlight := fun _ => []
  returned := fun _ => []

/-- The packet id of a record: the first byte behind the record header. -/
def recordId (record : List UByte) : UByte := record.getD 5 0

/-- Who began the builders after a decoding step of a client. -/
def beginners (c : Client) (before after : QVPNPacketManager) (begun : UByte → Option Client)
    (id : UByte) : Option Client :=
  match after.packets id, before.packets id with
  | none, _ => none
  | some _, none => some c
  | some _, some _ => begun id

/-- The state after the first record of a client was decoded. -/
def afterDecode [DecidableEq Client] (s : Server Client) (c : Client)
    (records : List (List UByte)) (packet : Option QTunnelData) (m : QVPNPacketManager) :
    Server Client :=
  { s with
    manager := m
    begun := beginners c s.manager m s.begun
    inFlight := Function.update s.inFlight c records
    returned := Function.update s.returned c (s.returned c ++ packet.toList) }

def step [DecidableEq Client] (s : Server Client) : ServerAction Client → Except Fault (Server Client)
  | .send c packet => do
    let (split, sender) ← encodeData defaultLayers (s.sender c) packet.toQTunnelProxy packet.data
    let records ← split.records
    return { s with
      sender := Function.update s.sender c sender
      sent := Function.update s.sent c (s.sent c ++ [packet])
      inFlight := Function.update s.inFlight c (s.inFlight c ++ records) }
  | .decode c =>
    match s.inFlight c with
    | [] => .ok s
    | record :: records => do
      let (packet, m) ← decodeData defaultLayers s.manager record
      return s.afterDecode c records packet m

/-- Packets are sendable, and no record is decoded under an id whose builder another client
began. -/
def Guard (s : Server Client) : ServerAction Client → Prop
  | .send _ packet => packet.Sendable
  | .decode c => ∀ record records, s.inFlight c = record :: records →
    ∀ owner, s.begun (recordId record) = some owner → owner = c

/-- Every packet returned in the loop of a client is one that this client sent. -/
def Isolated (s : Server Client) : Prop := ∀ c, ∀ packet ∈ s.returned c, packet ∈ s.sent c

/-- What is on its way from a client: the second record of a packet whose first was decoded, and
whole packets. -/
structure Pending (s : Server Client) (c : Client) (half : Option (UByte × QTunnelData)) : Prop where
  inFlight : ∃ later, s.inFlight c = (half.map fun e => secondRecord e.1 e.2.data).toList ++
    recordsOf later ∧ ∀ e ∈ later, e.2 ∈ s.sent c ∧ e.2.Sendable
  half : ∀ id packet, half = some (id, packet) → packet ∈ s.sent c ∧ packet.Sendable ∧
    packet.data.length = 65230 ∧ s.begun id = some c ∧
    s.manager.packets id = some (firstBuilder packet.toQTunnelProxy packet.data)

/-- Every builder is the first half of the packet that its beginner is still sending. -/
structure Inv (s : Server Client) : Prop where
  not_cached : s.manager.cached = none
  config : ∀ c, (s.sender c).DefaultConfig
  isolated : s.Isolated
  pending : ∃ half : Client → Option (UByte × QTunnelData), (∀ c, s.Pending c (half c)) ∧
    ∀ id, s.manager.packets id ≠ none → ∃ c packet, half c = some (id, packet)

/-- No builder is full between the steps. -/
theorem Inv.settled {s : Server Client} (h : s.Inv) : s.manager.Settled where
  none_full := by
    intro id
    obtain ⟨half, hpending, hbuilders⟩ := h.pending
    by_cases hid : s.manager.packets id = none
    · rw [fullAt, hid]
      rfl
    · obtain ⟨c, packet, hhalf⟩ := hbuilders id hid
      obtain ⟨-, -, -, -, hpackets⟩ := (hpending c).half id packet hhalf
      rw [fullAt, hpackets]
      rfl
  not_cached := h.not_cached

theorem inv_start (order : IterationOrder) : (start Client order).Inv where
  not_cached := rfl
  config := fun _ => initial_defaultConfig order
  isolated := by simp [Isolated, start]
  pending := by
    refine ⟨fun _ => none, ?_, ?_⟩
    · intro c
      exact ⟨⟨[], rfl, by simp⟩, by simp⟩
    · intro id hid
      exact absurd rfl hid

/-- A builder that was there before a step keeps its beginner. -/
theorem beginners_of_some {c : Client} {before after : QVPNPacketManager}
    {begun : UByte → Option Client} {id : UByte} {pb : PacketBuilder}
    (hbefore : before.packets id = some pb) (hafter : after.packets id = before.packets id) :
    beginners c before after begun id = begun id := by
  rw [beginners, hafter, hbefore]

variable [DecidableEq Client]

/-- A sendable packet puts its records on their way. -/
theorem step_send {s : Server Client} {c : Client} {packet : QTunnelData}
    (hconfig : (s.sender c).DefaultConfig) (hpacket : packet.Sendable) :
    s.step (.send c packet) = .ok { s with
      sender := Function.update s.sender c (s.sender c).nextPacketId
      sent := Function.update s.sent c (s.sent c ++ [packet])
      inFlight := Function.update s.inFlight c (s.inFlight c ++
        packetRecords (s.sender c).lastPacketId packet.toQTunnelProxy packet.data) } := by
  obtain ⟨split, hencode, hrecords⟩ := encodeData_records hconfig hpacket.valid hpacket.size
  rw [step, hencode, ok_bind]
  dsimp only
  rw [hrecords]
  rfl

/-- Decoding takes the first record of the client. -/
theorem step_decode {s : Server Client} {c : Client} {record : List UByte}
    {records : List (List UByte)} {packet : Option QTunnelData} {m : QVPNPacketManager}
    (hflight : s.inFlight c = record :: records)
    (hdecode : decodeData defaultLayers s.manager record = .ok (packet, m)) :
    s.step (.decode c) = .ok (s.afterDecode c records packet m) := by
  rw [step, hflight]
  dsimp only
  rw [hdecode]
  rfl

/-- Sending appends the records of one more packet. -/
theorem Inv.send {s s' : Server Client} {c : Client} {packet : QTunnelData} (h : s.Inv)
    (hpacket : packet.Sendable) (hstep : s.step (.send c packet) = .ok s') : s'.Inv := by
  cases Except.ok.inj ((step_send (h.config c) hpacket).symm.trans hstep)
  obtain ⟨half, hpending, hbuilders⟩ := h.pending
  have hsent (other : Client) (p : QTunnelData) (hp : p ∈ s.sent other) :
      p ∈ Function.update s.sent c (s.sent c ++ [packet]) other := by
    by_cases hother : other = c
    · rw [hother] at hp ⊢
      rw [Function.update_self]
      exact List.mem_append_left _ hp
    · rwa [Function.update_of_ne hother]
  refine ⟨h.not_cached, ?_, ?_, half, ?_, hbuilders⟩
  · intro other
    by_cases hother : other = c
    · rw [hother]
      dsimp only
      rw [Function.update_self]
      exact ⟨(h.config c).max_size, (h.config c).split_size⟩
    · dsimp only
      rw [Function.update_of_ne hother]
      exact h.config other
  · intro other p hp
    exact hsent other p (h.isolated other p hp)
  · intro other
    obtain ⟨later, hflight, hlater⟩ := (hpending other).inFlight
    refine ⟨?_, ?_⟩
    · by_cases hother : other = c
      · subst hother
        refine ⟨later ++ [((s.sender other).lastPacketId, packet)], ?_, ?_⟩
        · dsimp only
          rw [Function.update_self, hflight, recordsOf, recordsOf, List.flatMap_append,
            List.append_assoc]
          simp
        · intro e he
          rcases List.mem_append.mp he with he | he
          · exact ⟨hsent other _ (hlater e he).1, (hlater e he).2⟩
          · obtain rfl := List.mem_singleton.mp he
            exact ⟨by simp, hpacket⟩
      · refine ⟨later, ?_, fun e he => ⟨hsent other _ (hlater e he).1, (hlater e he).2⟩⟩
        dsimp only
        rwa [Function.update_of_ne hother]
    · intro id p hp
      obtain ⟨hmem, hrest⟩ := (hpending other).half id p hp
      exact ⟨hsent other p hmem, hrest⟩

/-- Decoding for one client leaves what is on its way from another. -/
theorem Pending.other {s : Server Client} {c other : Client} {m : QVPNPacketManager}
    {half : Option (UByte × QTunnelData)} {records : List (List UByte)}
    {packet : Option QTunnelData} (h : s.Pending other half) (hother : other ≠ c)
    (hkeep : ∀ id p, half = some (id, p) → m.packets id = s.manager.packets id) :
    (s.afterDecode c records packet m).Pending other half where
  inFlight := by
    obtain ⟨later, hflight, hlater⟩ := h.inFlight
    refine ⟨later, ?_, hlater⟩
    rw [afterDecode, ← hflight]
    exact Function.update_of_ne hother _ _
  half := by
    intro id p hp
    obtain ⟨hmem, hsendable, hlen, hbegun, hpackets⟩ := h.half id p hp
    have hm := hkeep id p hp
    refine ⟨hmem, hsendable, hlen, ?_, hm.trans hpackets⟩
    exact (beginners_of_some hpackets hm).trans hbegun

/-- What was returned stays with its client. -/
theorem Isolated.afterDecode {s : Server Client} {c : Client} {records : List (List UByte)}
    {packet : Option QTunnelData} {m : QVPNPacketManager} (h : s.Isolated)
    (hpacket : ∀ p, packet = some p → p ∈ s.sent c) :
    (s.afterDecode c records packet m).Isolated := by
  intro other p hp
  by_cases hother : other = c
  · subst hother
    dsimp only [Server.afterDecode] at hp
    rw [Function.update_self] at hp
    rcases List.mem_append.mp hp with hp | hp
    · exact h other p hp
    · exact hpacket p (by simpa using hp)
  · dsimp only [Server.afterDecode] at hp
    rw [Function.update_of_ne hother] at hp
    exact h other p hp

/-- The second record of a packet completes it. -/
theorem Inv.decode_second {s : Server Client} {c : Client} {id : UByte} {p : QTunnelData}
    {half : Client → Option (UByte × QTunnelData)} {later : List (UByte × QTunnelData)}
    (h : s.Inv) (hpending : ∀ c, s.Pending c (half c))
    (hbuilders : ∀ id, s.manager.packets id ≠ none → ∃ c packet, half c = some (id, packet))
    (hhalf : half c = some (id, p)) (hlater : ∀ e ∈ later, e.2 ∈ s.sent c ∧ e.2.Sendable) :
    (s.afterDecode c (recordsOf later) (some p) { s.manager with
      packets := Function.update s.manager.packets id none }).Inv := by
  obtain ⟨hmem, -, -, hbegun, -⟩ := (hpending c).half id p hhalf
  refine ⟨h.not_cached, h.config, ?_, Function.update half c none, ?_, ?_⟩
  · refine h.isolated.afterDecode ?_
    rintro q ⟨⟩
    exact hmem
  · intro other
    by_cases hother : other = c
    · subst hother
      rw [Function.update_self]
      exact ⟨⟨later, by simp [afterDecode], hlater⟩, by simp⟩
    · rw [Function.update_of_ne hother]
      refine (hpending other).other hother ?_
      intro id' q hq
      -- two clients never hold builders under one id
      have hid : id' ≠ id := by
        rintro rfl
        obtain ⟨-, -, -, hbegun', -⟩ := (hpending other).half id' q hq
        exact hother (Option.some.inj (hbegun'.symm.trans hbegun))
      exact Function.update_of_ne hid _ _
  · intro id' hid'
    by_cases hid : id' = id
    · exact absurd (by rw [hid]; exact Function.update_self ..) hid'
    · have hold : s.manager.packets id' ≠ none := by
        intro hnone
        exact hid' ((Function.update_of_ne hid _ _).trans hnone)
      obtain ⟨owner, q, hq⟩ := hbuilders id' hold
      have howner : owner ≠ c := by
        rintro rfl
        rw [hhalf] at hq
        exact hid (congrArg Prod.fst (Option.some.inj hq)).symm
      exact ⟨owner, q, by rw [Function.update_of_ne howner, hq]⟩

/-- A whole packet comes and goes in one step. -/
theorem Inv.decode_whole {s : Server Client} {c : Client} {p : QTunnelData}
    {half : Client → Option (UByte × QTunnelData)} {later : List (UByte × QTunnelData)}
    (h : s.Inv) (hpending : ∀ c, s.Pending c (half c))
    (hbuilders : ∀ id, s.manager.packets id ≠ none → ∃ c packet, half c = some (id, packet))
    (hhalf : half c = none) (hmem : p ∈ s.sent c)
    (hlater : ∀ e ∈ later, e.2 ∈ s.sent c ∧ e.2.Sendable) :
    (s.afterDecode c (recordsOf later) (some p) s.manager).Inv := by
  refine ⟨h.not_cached, h.config, ?_, half, ?_, hbuilders⟩
  · refine h.isolated.afterDecode ?_
    rintro q ⟨⟩
    exact hmem
  · intro other
    by_cases hother : other = c
    · subst hother
      rw [hhalf]
      exact ⟨⟨later, by simp [afterDecode], hlater⟩, by simp⟩
    · exact (hpending other).other hother fun _ _ _ => rfl

/-- The first record of a packet begins a builder of its client. -/
theorem Inv.decode_first {s : Server Client} {c : Client} {id : UByte} {p : QTunnelData}
    {half : Client → Option (UByte × QTunnelData)} {later : List (UByte × QTunnelData)}
    (h : s.Inv) (hpending : ∀ c, s.Pending c (half c))
    (hbuilders : ∀ id, s.manager.packets id ≠ none → ∃ c packet, half c = some (id, packet))
    (hhalf : half c = none) (hnone : s.manager.packets id = none) (hmem : p ∈ s.sent c)
    (hp : p.Sendable) (hlen : p.data.length = 65230)
    (hlater : ∀ e ∈ later, e.2 ∈ s.sent c ∧ e.2.Sendable) :
    (s.afterDecode c (secondRecord id p.data :: recordsOf later) none { s.manager with
      packets := Function.update s.manager.packets id
        (some (firstBuilder p.toQTunnelProxy p.data)) }).Inv := by
  refine ⟨h.not_cached, h.config, h.isolated.afterDecode (by simp),
    Function.update half c (some (id, p)), ?_, ?_⟩
  · intro other
    by_cases hother : other = c
    · subst hother
      rw [Function.update_self]
      refine ⟨⟨later, by simp [afterDecode], hlater⟩, ?_⟩
      rintro id' q ⟨⟩
      refine ⟨hmem, hp, hlen, ?_, Function.update_self ..⟩
      simp [afterDecode, beginners, hnone]
    · rw [Function.update_of_ne hother]
      refine (hpending other).other hother ?_
      intro id' q hq
      have hid : id' ≠ id := by
        rintro rfl
        obtain ⟨-, -, -, -, hpackets⟩ := (hpending other).half id' q hq
        rw [hnone] at hpackets
        cases hpackets
      exact Function.update_of_ne hid _ _
  · intro id' hid'
    by_cases hid : id' = id
    · exact ⟨c, p, by rw [Function.update_self, hid]⟩
    · have hold : s.manager.packets id' ≠ none := by
        intro hnone'
        exact hid' ((Function.update_of_ne hid _ _).trans hnone')
      obtain ⟨owner, q, hq⟩ := hbuilders id' hold
      have howner : owner ≠ c := by
        rintro rfl
        rw [hhalf] at hq
        cases hq
      exact ⟨owner, q, by rw [Function.update_of_ne howner, hq]⟩

/-- A record that meets no builder of another client is decoded to a packet of its own client. -/
theorem Inv.decode {s s' : Server Client} {c : Client} (h : s.Inv) (hguard : s.Guard (.decode c))
    (hstep : s.step (.decode c) = .ok s') : s'.Inv := by
  obtain ⟨half, hpending, hbuilders⟩ := h.pending
  obtain ⟨later, hflight, hlater⟩ := (hpending c).inFlight
  have hsettled := h.settled
  cases hhalf : half c with
  | some e =>
    obtain ⟨id, p⟩ := e
    obtain ⟨-, hp, hlen, -, hpackets⟩ := (hpending c).half id p hhalf
    rw [hhalf] at hflight
    change s.inFlight c = secondRecord id p.data :: recordsOf later at hflight
    have hdecode := decodeData_secondRecord hp.valid hlen hsettled hpackets
    cases Except.ok.inj ((step_decode hflight hdecode).symm.trans hstep)
    exact h.decode_second hpending hbuilders hhalf hlater
  | none =>
    rw [hhalf] at hflight
    change s.inFlight c = recordsOf later at hflight
    cases later with
    | nil =>
      rw [step, hflight] at hstep
      cases Except.ok.inj hstep
      exact h
    | cons e later =>
      obtain ⟨id, p⟩ := e
      obtain ⟨hmem, hp⟩ := hlater (id, p) (by simp)
      have hrest : ∀ e ∈ later, e.2 ∈ s.sent c ∧ e.2.Sendable :=
        fun e he => hlater e (List.mem_cons_of_mem _ he)
      rw [recordsOf_cons] at hflight
      -- a builder under this id would be this client's, which has none
      have hnone (record : List UByte) (records : List (List UByte))
          (hrecord : s.inFlight c = record :: records) (hid : recordId record = id) :
          s.manager.packets id = none := by
        by_contra hsome
        obtain ⟨owner, q, hq⟩ := hbuilders id hsome
        obtain ⟨-, -, -, hbegun, -⟩ := (hpending owner).half id q hq
        obtain rfl := hguard record records hrecord owner (by rw [hid, hbegun])
        rw [hhalf] at hq
        cases hq
      by_cases hsmall : p.data.length < 65229
      · rw [packetRecords, if_pos hsmall] at hflight
        change s.inFlight c = wholeRecord id p.toQTunnelProxy p.data :: recordsOf later at hflight
        have hdecode := decodeData_wholeRecord hp.valid hsmall hsettled (hnone _ _ hflight rfl)
        cases Except.ok.inj ((step_decode hflight hdecode).symm.trans hstep)
        exact h.decode_whole hpending hbuilders hhalf hmem hrest
      · have hlen := hp.size.resolve_left hsmall
        rw [packetRecords, if_neg hsmall] at hflight
        change s.inFlight c = firstRecord id p.toQTunnelProxy p.data ::
          secondRecord id p.data :: recordsOf later at hflight
        have hfree := hnone _ _ hflight rfl
        have hdecode := decodeData_firstRecord hp.valid hlen hsettled hfree
        cases Except.ok.inj ((step_decode hflight hdecode).symm.trans hstep)
        exact h.decode_first hpending hbuilders hhalf hfree hmem hp hlen hrest

/-- Every guarded step preserves the invariant. -/
theorem Inv.step {s s' : Server Client} {a : ServerAction Client} (h : s.Inv) (hguard : s.Guard a)
    (hstep : s.step a = .ok s') : s'.Inv := by
  cases a with
  | send c packet => exact h.send hguard hstep
  | decode c => exact h.decode hguard hstep

end Server

open Server

/-- In every run in which no record meets another client's builder, each loop returns only
packets of its own client. -/
theorem guarded_runs_are_isolated [DecidableEq Client] (order : IterationOrder) (s : Server Client)
    (hrun : Run.Reaches (fun s a s' => Server.step s a = .ok s') Guard (start Client order) s) :
    s.Isolated :=
  have hinv : s.Inv := hrun.invariant (inv_start order)
    fun _ _ _ hinv hguard hstep => hinv.step hguard hstep
  hinv.isolated

/-- Two clients that each send the query get it back in their own loops. -/
theorem guarded_runs_are_isolated_twoClients : ∃ s : Server Bool,
    s.returned false = [query] ∧ s.returned true = [query] ∧ s.Isolated := by
  have hquery := query_unsplit.sendable
  refine ⟨_, ?_, ?_, guarded_runs_are_isolated .increasing _ (((((Run.Reaches.refl _).step
    (a := .send false query) hquery rfl).step (a := .send true query) hquery rfl).step
    (a := .decode true) ?_ rfl).step (a := .decode false) ?_ rfl)⟩
  · rfl
  · rfl
  · rintro record records - owner ⟨⟩
  · rintro record records hflight owner hbegun
    cases hflight
    have hfree : (none : Option Bool) = some owner := hbegun
    cases hfree

/-- The query with a payload that is split in the middle. -/
def splitQuery : QTunnelData := { query with data := List.replicate 65230 7 }

/-- A packet of another source that has the size of the missing half. -/
def fillingQuery : QTunnelData :=
  { query with sourceAddr := ⟨[10, 0, 0, 3]⟩, data := List.replicate 32597 7 }

/-- What the server makes of the two. -/
def mixedQuery : QTunnelData where
  netProtocol := .IPv4
  transportProtocol := .UDP
  sourceAddr := ⟨[10, 4, 17, 10]⟩
  sourcePort := 0
  dstAddr := ⟨[3, 15, 160, 8]⟩
  dstPort := 0x0808
  protoData := .ofLength 2048 ([53, 0, 2, 0, 10] ++ List.replicate 2043 7)
  data := List.replicate 30554 7 ++ ([0, 0, 2, 15, 160, 8, 8, 8, 8, 0, 53, 0, 2, 0, 10] ++
    List.replicate 32615 7)

theorem splitQuery_sendable : splitQuery.Sendable :=
  ⟨query_unsplit.addrs, query_unsplit.proto, Or.inr (List.length_replicate ..)⟩

theorem fillingQuery_small : fillingQuery.data.length < 65229 := by
  rw [show fillingQuery.data.length = 32597 from List.length_replicate ..]
  decide

theorem fillingQuery_sendable : fillingQuery.Sendable :=
  ⟨Or.inl (by decide), query_unsplit.proto, Or.inl fillingQuery_small⟩

/-- The filling packet lands in front of the first zero byte of the half it meets. -/
theorem addData_fillingQuery :
    (firstBuilder splitQuery.toQTunnelProxy splitQuery.data).addData 0
      (fillingQuery.encode fillingQuery.data) =
      ⟨65248, mixedQuery.encode mixedQuery.data, true⟩ := by
  have hhalf : splitQuery.encode (splitQuery.data.take 32615) = [4, 17, 10] ++
      ([0, 0, 2, 15, 160, 8, 8, 8, 8, 0, 53, 0, 2, 0, 10] ++ List.replicate 32615 7) := by
    have htake : splitQuery.data.take 32615 = List.replicate 32615 7 := by
      rw [splitQuery, List.take_replicate]
      rfl
    rw [htake]
    rfl
  have hfind : PacketBuilder.find (splitQuery.encode (splitQuery.data.take 32615)) 0 = 3 := by
    rw [hhalf]
    rfl
  have hreplicate : List.replicate 32597 (7 : UByte) =
      List.replicate 2043 7 ++ List.replicate 30554 7 := by
    rw [List.replicate_append_replicate]
  have hmixed : [4, 17, 10] ++ fillingQuery.encode fillingQuery.data ++
      ([0, 0, 2, 15, 160, 8, 8, 8, 8, 0, 53, 0, 2, 0, 10] ++ List.replicate 32615 7) =
      mixedQuery.encode mixedQuery.data := by
    rw [fillingQuery, mixedQuery, hreplicate]
    generalize List.replicate 2043 (7 : UByte) = a
    generalize List.replicate 30554 (7 : UByte) = b
    generalize List.replicate 32615 (7 : UByte) = c
    simp only [QTunnelProxy.encode, QTunnelProxy.headerBytes, query, QTunnelProtoData.ofLength,
      List.append_assoc]
    rfl
  have hlength : (mixedQuery.encode mixedQuery.data).length = 65248 := by
    have hdata : fillingQuery.data.length = 32597 := List.length_replicate ..
    have hproxy : (fillingQuery.encode []).length = 18 := rfl
    have hhead : ([4, 17, 10] : List UByte).length = 3 := rfl
    have htail : ([0, 0, 2, 15, 160, 8, 8, 8, 8, 0, 53, 0, 2, 0, 10] : List UByte).length = 15 := rfl
    rw [← hmixed, List.length_append, List.length_append, List.length_append,
      QTunnelProxy.encode_length, hdata, hproxy, hhead, htail, List.length_replicate]
  have hsize : (65230 + UInt16.ofNat (splitQuery.encode []).length : UShort) = 65248 := by decide
  rw [PacketBuilder.addData, firstBuilder, hsize]
  dsimp only
  rw [hfind, hhalf]
  rw [List.take_left' (show ([4, 17, 10] : List UByte).length = 3 from rfl),
    List.drop_left' (show ([4, 17, 10] : List UByte).length = 3 from rfl), hmixed, hlength]
  rfl

/-- The record of the filling packet completes the builder of the other client. -/
theorem decodeData_fillingQuery {m : QVPNPacketManager} (hsettled : m.Settled)
    (hid : m.packets 0 = some (firstBuilder splitQuery.toQTunnelProxy splitQuery.data)) :
    ∃ m', decodeData defaultLayers m (wholeRecord 0 fillingQuery.toQTunnelProxy fillingQuery.data) =
      .ok (some mixedQuery, m') := by
  have hdata : fillingQuery.data.length = 32597 := List.length_replicate ..
  have hproxy : (fillingQuery.encode []).length = 18 := rfl
  have hlen := fillingQuery.encode_length fillingQuery.data
  have hsize : (UInt16.ofNat (fillingQuery.encode fillingQuery.data).length).toNat = 32615 := by
    rw [hlen, hdata, hproxy]
    decide
  have hadm : Admitted 0 (UInt16.ofNat (fillingQuery.encode fillingQuery.data).length)
      (fillingQuery.encode fillingQuery.data) := by
    refine ⟨fillingQuery.encode_ne_nil _, ?_⟩
    rw [hsize, UInt16.toNat_zero]
    omega
  have hmixed : QTunnelData.ofBytes (mixedQuery.encode mixedQuery.data) = .ok mixedQuery := by
    refine QTunnelData.ofBytes_encode (Or.inl (by decide)) ⟨2048, _, rfl, ?_⟩ _
    rw [List.length_append, List.length_replicate]
    rfl
  rw [wholeRecord, decodeData_record (by rw [List.length_append, PacketBuilderData.bytes_length]; omega),
    buildPacket_add hadm hid, addData_fillingQuery,
    popIfFull_of_full (Function.update_self 0 _ m.packets) rfl
      (fun other hother => by rw [fullAt_update, if_neg hother, hsettled.none_full]), ok_bind]
  dsimp only
  rw [hmixed]
  exact ⟨_, rfl⟩

/-- What sending changes, and what it leaves to the other clients. -/
theorem exists_step_send [DecidableEq Client] {s : Server Client} {c : Client}
    {packet : QTunnelData} (hconfig : (s.sender c).DefaultConfig) (hpacket : packet.Sendable) :
    ∃ s', s.step (.send c packet) = .ok s' ∧ s'.manager = s.manager ∧
      s'.inFlight c = s.inFlight c ++
        packetRecords (s.sender c).lastPacketId packet.toQTunnelProxy packet.data ∧
      s'.sent c = s.sent c ++ [packet] ∧ ∀ other, other ≠ c → s'.inFlight other = s.inFlight other ∧
        s'.sent other = s.sent other ∧ s'.sender other = s.sender other :=
  ⟨_, step_send hconfig hpacket, rfl, Function.update_self .., Function.update_self ..,
    fun _ h => ⟨Function.update_of_ne h _ _, Function.update_of_ne h _ _,
      Function.update_of_ne h _ _⟩⟩

/-- If a packet of one client completes the half-received packet of another to a third one, then
the third one is returned in the loop of the first client. -/
theorem not_isolated_of_mixed {half filling mixed : QTunnelData} (hhalf : half.Sendable)
    (hfilling : filling.Sendable) (hlen : half.data.length = 65230)
    (hlen' : filling.data.length < 65229) (hne : mixed ≠ filling)
    (hmixed : ∀ m : QVPNPacketManager, m.Settled →
      m.packets 0 = some (firstBuilder half.toQTunnelProxy half.data) →
      ∃ m', decodeData defaultLayers m (wholeRecord 0 filling.toQTunnelProxy filling.data) =
        .ok (some mixed, m')) :
    ∃ s : Server Bool, Run.Reaches (fun s a s' => Server.step s a = .ok s')
      (fun _ a => ∀ c packet, a = .send c packet → packet.Sendable)
      (start Bool .increasing) s ∧ ¬ s.Isolated := by
  have hsends (c : Bool) (p : QTunnelData) (hp : p.Sendable) :
      ∀ c' packet, ServerAction.send c p = .send c' packet → packet.Sendable := by
    rintro c' packet ⟨⟩
    exact hp
  let m : QVPNPacketManager := { initial .increasing with
    packets := Function.update (initial .increasing).packets 0
      (some (firstBuilder half.toQTunnelProxy half.data)) }
  have hsettled : m.Settled := by
    refine ⟨fun other => ?_, rfl⟩
    rw [fullAt_update]
    split <;> rfl
  obtain ⟨m', hmixed⟩ := hmixed m hsettled (Function.update_self 0 _ (initial .increasing).packets)
  obtain ⟨s₁, hstep₁, hmanager₁, hflight₁, -, hother₁⟩ := exists_step_send
    (s := start Bool .increasing) (c := false) (initial_defaultConfig _) hhalf
  obtain ⟨hflightB, hsentB, hsenderB⟩ := hother₁ true (by decide)
  rw [packetRecords, if_neg (by omega)] at hflight₁
  have hfirst : decodeData defaultLayers s₁.manager (firstRecord 0 half.toQTunnelProxy half.data) =
      .ok (none, m) := by
    rw [hmanager₁]
    exact decodeData_firstRecord hhalf.valid hlen (initial_settled .increasing) rfl
  have hstep₂ := step_decode hflight₁ hfirst
  obtain ⟨s₃, hstep₃, hmanager₃, hflight₃, hsent₃, -⟩ := exists_step_send (c := true)
    (s := s₁.afterDecode false [secondRecord 0 half.data] none m)
    (by rw [afterDecode, hsenderB]; exact initial_defaultConfig _) hfilling
  have hflight : s₃.inFlight true = [wholeRecord 0 filling.toQTunnelProxy filling.data] := by
    rw [hflight₃, packetRecords, if_pos hlen']
    dsimp only [afterDecode]
    rw [Function.update_of_ne (by decide), hflightB, hsenderB]
    rfl
  have hsent : s₃.sent true = [filling] := by
    rw [hsent₃]
    dsimp only [afterDecode]
    rw [hsentB]
    rfl
  rw [← show s₃.manager = m from hmanager₃] at hmixed
  refine ⟨_, ((((Run.Reaches.refl _).step (hsends false _ hhalf) hstep₁).step
    (a := .decode false) (by simp) hstep₂).step (hsends true _ hfilling) hstep₃).step
    (a := .decode true) (by simp) (step_decode hflight hmixed), ?_⟩
  intro hisolated
  have hmem := hisolated true mixed (by simp [afterDecode])
  dsimp only [afterDecode] at hmem
  rw [hsent] at hmem
  exact hne (List.mem_singleton.mp hmem)

/-- A first half of one client and a packet of another make a packet that nobody sent, and it is
returned in the loop of the other client. -/
theorem splitQuery_not_isolated : ∃ s : Server Bool,
    Run.Reaches (fun s a s' => Server.step s a = .ok s')
      (fun _ a => ∀ c packet, a = .send c packet → packet.Sendable)
      (start Bool .increasing) s ∧ ¬ s.Isolated := by
  refine not_isolated_of_mixed splitQuery_sendable fillingQuery_sendable
    (List.length_replicate ..) fillingQuery_small ?_ fun m => decodeData_fillingQuery
  intro hmixed
  exact absurd (congrArg (fun p : QTunnelData => p.sourceAddr) hmixed) (by decide)

end QVPN
