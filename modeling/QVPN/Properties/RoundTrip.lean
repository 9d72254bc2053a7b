import QVPN.Driver.Codec

/-!
# The tunnel round trip

One driver encodes packet after packet, and its peer decodes the records of each in the order
in which they were sent. Packet ids are numbers modulo 256, so in a long run every id is used
again; the run below has no bound on its length.

Payloads stay below the default maximum size, so that every packet is one record.
-/

namespace QVPN

open Memory QVPNLayersSettings QVPNPacketManager

/-- One packet through the tunnel: what the peer's decoder returns for each of its records, and
both managers afterwards. -/
def tunnelStep (layers : QVPNLayersSettings) (sender peer : QVPNPacketManager)
    (packet : QTunnelData) :
    Except Fault (List (Option QTunnelData) × QVPNPacketManager × QVPNPacketManager) := do
  let (s, sender) ← encodeData layers sender packet.toQTunnelProxy packet.data
  let records ← s.records
  let (returned, peer) ← decodeRecords layers peer records
  return (returned, sender, peer)

/-- What the peer returned in one step of a run, and its manager after the step. -/
structure TunnelStep where
  returned : List (Option QTunnelData)
  peer : QVPNPacketManager

/-- A run through the tunnel, with every step retained. -/
def tunnelRun (layers : QVPNLayersSettings) (sender peer : QVPNPacketManager) :
    List QTunnelData → Except Fault (List TunnelStep)
  | [] => .ok []
  | packet :: packets => do
    let (returned, sender, peer) ← tunnelStep layers sender peer packet
    let steps ← tunnelRun layers sender peer packets
    return ⟨returned, peer⟩ :: steps

/-- A user packet: addresses of the protocol's size, collected proto data, and a payload below
the maximum. Any transport protocol will do. -/
structure QTunnelData.Unsplit (packet : QTunnelData) : Prop where
  addrs : packet.AddrsMatch
  proto : packet.protoData.Collected
  size : packet.data.length < 65229

/-- Such a packet can be sent. -/
theorem QTunnelData.Unsplit.sendable {packet : QTunnelData} (h : packet.Unsplit) :
    packet.Sendable :=
  ⟨h.addrs, h.proto, Or.inl h.size⟩

/-- One packet passes unchanged, and the peer is as it was before. -/
theorem tunnelStep_unsplit {sender peer : QVPNPacketManager} {packet : QTunnelData}
    (hsender : sender.DefaultConfig) (hpeer : peer.Empty) (hcached : peer.cached = none)
    (hpacket : packet.Unsplit) :
    tunnelStep defaultLayers sender peer packet =
      .ok ([some packet], sender.nextPacketId, peer) := by
  have hsize := hpacket.size
  obtain ⟨s, hencode, hrecords⟩ := encodeData_records hsender hpacket.sendable.valid (Or.inl hsize)
  rw [packetRecords, if_pos hsize] at hrecords
  have hdecode := decodeData_wholeRecord hpacket.sendable.valid hsize (hpeer.settled hcached)
    (hpeer sender.lastPacketId)
  rw [tunnelStep, hencode, ok_bind]
  dsimp only
  rw [hrecords, ok_bind, decodeRecords, hdecode]
  rfl

/-- Every run through the tunnel returns the packets that were sent, one for one and in order,
and leaves the peer without a builder after each of its steps. -/
theorem tunnelRun_returns_packets (sender peer : QVPNPacketManager) (packets : List QTunnelData)
    (hsender : sender.DefaultConfig) (hpeer : peer.Empty) (hcached : peer.cached = none)
    (hpackets : ∀ packet ∈ packets, packet.Unsplit) :
    ∃ steps, tunnelRun defaultLayers sender peer packets = .ok steps ∧
      steps.map TunnelStep.returned = packets.map (fun packet => [some packet]) ∧
      ∀ step ∈ steps, step.peer.Empty := by
  -- the sender's next id plays no role: the peer starts every step without a builder
  induction packets generalizing sender with
  | nil => exact ⟨[], rfl, rfl, by simp⟩
  | cons packet packets ih =>
    have hstep := tunnelStep_unsplit hsender hpeer hcached (hpackets packet (by simp))
    obtain ⟨steps, hrun, hreturned, hempty⟩ := ih sender.nextPacketId
      ⟨hsender.max_size, hsender.split_size⟩ fun p hp => hpackets p (by simp [hp])
    refine ⟨⟨[some packet], peer⟩ :: steps, ?_, ?_, ?_⟩
    · rw [tunnelRun, hstep, ok_bind]
      dsimp only
      rw [hrun]
      rfl
    · simp only [List.map_cons, hreturned]
    · intro step hmem
      rcases List.mem_cons.mp hmem with rfl | hmem
      · exact hpeer
      · exact hempty step hmem

/-- A name-server query of two payload bytes, as it is captured. -/
def capturedQuery : List UByte :=
  [0x45, 0, 0, 30, 0, 0, 0x40, 0, 64, 17, 0, 0, 10, 0, 0, 2, 8, 8, 8, 8,
    0x0F, 0xA0, 0, 53, 0, 10, 0, 0, 7, 9]

/-- The query as it is encoded. -/
def query : QTunnelData where
  netProtocol := .IPv4
  transportProtocol := .UDP
  sourceAddr := ⟨[10, 0, 0, 2]⟩
  sourcePort := 4000
  dstAddr := ⟨[8, 8, 8, 8]⟩
  dstPort := 53
  protoData := ⟨[0, 2, 0, 10]⟩
  data := [7, 9]

theorem query_unsplit : query.Unsplit where
  addrs := Or.inl (by decide)
  proto := ⟨capturedQuery, 30, .udp ⟨capturedQuery, 0⟩ ⟨capturedQuery.drop 20⟩ (28, 30), rfl, rfl⟩
  size := by decide

/-- The same query sent twice arrives twice. -/
theorem tunnelRun_returns_packets_twoQueries :
    ∃ steps, tunnelRun defaultLayers (initial .increasing) (initial .increasing) [query, query] =
        .ok steps ∧
      steps.map TunnelStep.returned = [[some query], [some query]] ∧
      ∀ step ∈ steps, step.peer.Empty :=
  tunnelRun_returns_packets _ _ [query, query] (initial_defaultConfig _) (initial_empty _) rfl
    (by simpa using query_unsplit)

end QVPN
