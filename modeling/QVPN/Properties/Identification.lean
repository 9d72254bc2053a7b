import QVPN.Lib.Run
import QVPN.Properties.GeneratedIpv4

/-!
# The identification of generated packets

One strategy generates packet after packet. A fragment carries the last identification and leaves
it alone. An unfragmented packet takes the next one, unless the last one is zero; zero is where a
strategy starts and where its sixteen bits wrap, and from there on all packets carry it.
-/

namespace QVPN

open BigEndian Memory

/-- The arguments of a generated header. The addresses have the four bytes that are read. -/
structure Ipv4Request where
  src : NetAddr
  dst : NetAddr
  proto : TransportProtocol
  totalLength : UShort
  df : Bool
  mf : Bool
  offset : UShort
  src_readable : 4 ≤ src.ip.length
  dst_readable : 4 ≤ dst.ip.length

/-- No further fragments, and none before. -/
def Ipv4Request.Unfragmented (r : Ipv4Request) : Prop := r.mf = false ∧ r.offset = 0

instance (r : Ipv4Request) : Decidable r.Unfragmented :=
  inferInstanceAs (Decidable (_ ∧ _))

/-- One call of the generator: the header and the strategy before and after it. -/
structure GeneratedHeader where
  request : Ipv4Request
  before : Ipv4DefaultGenStrategy
  header : List UByte
  after : Ipv4DefaultGenStrategy

/-- The calls of the generator with one strategy. -/
def generateRun (strategy : Ipv4DefaultGenStrategy) :
    List Ipv4Request → Except Fault (List GeneratedHeader)
  | [] => .ok []
  | r :: requests => do
    let (header, after) ← Ipv4PacketLittleEndian.generateObjectBytes strategy r.src r.dst r.proto
      r.totalLength r.df r.mf r.offset
    let rest ← generateRun after requests
    return ⟨r, strategy, header, after⟩ :: rest

/-- The identifications that the unfragmented packets of a run carry. -/
def unfragmentedIds (run : List GeneratedHeader) : Except Fault (List UShort) :=
  (run.filter fun g => g.request.Unfragmented).mapM fun g =>
    Ipv4PacketLittleEndian.getIpId ⟨g.header⟩

/-- No two unfragmented packets of a run carry the same identification, and no fragment advances
it. -/
def IdsProgress (strategy : Ipv4DefaultGenStrategy) (requests : List Ipv4Request) : Prop :=
  ∃ run ids, generateRun strategy requests = .ok run ∧ unfragmentedIds run = .ok ids ∧ ids.Nodup ∧
    ∀ g ∈ run, ¬ g.request.Unfragmented → g.after = g.before

/-- How many identifications a strategy has left: as many as there are up to the wrap, and the zero
itself at the end. -/
def Ipv4DefaultGenStrategy.left (strategy : Ipv4DefaultGenStrategy) : ℕ :=
  if strategy.lastId = 0 then 1 else 65536 - strategy.lastId.toNat

/-- What an unfragmented packet makes of the last identification. -/
def nextId (id : UShort) : UShort := if id = 0 then 0 else id + 1

section Counter

/-- Before the wrap the identification counts. -/
theorem nextId_iterate {id : UShort} (hid : id ≠ 0) {k : ℕ} (hk : id.toNat + k ≤ 65536) :
    (nextId^[k] id).toNat = (id.toNat + k) % 65536 := by
  induction k with
  | zero =>
    have hlt := id.toNat_lt
    rw [Function.iterate_zero_apply]
    omega
  | succ k ih =>
    have hpos : 0 < id.toNat := Nat.pos_of_ne_zero fun h => hid (UInt16.toNat_inj.mp h)
    have hbefore := ih (by omega)
    have hne : nextId^[k] id ≠ 0 := by
      intro hzero
      rw [hzero, Nat.mod_eq_of_lt (by omega)] at hbefore
      change 0 = id.toNat + k at hbefore
      omega
    rw [Function.iterate_succ_apply', nextId, if_neg hne, UInt16.toNat_add, hbefore]
    change ((id.toNat + k) % 65536 + 1) % 65536 = (id.toNat + (k + 1)) % 65536
    omega

/-- The identifications of unfragmented packets are distinct as long as there are any left. -/
theorem nodup_nextIds_iff (strategy : Ipv4DefaultGenStrategy) (n : ℕ) :
    ((List.range n).map fun k => nextId^[k + 1] strategy.lastId).Nodup ↔ n ≤ strategy.left := by
  have hlt := strategy.lastId.toNat_lt
  rw [Ipv4DefaultGenStrategy.left]
  split
  · rename_i hzero
    rw [hzero]
    exact Run.nodup_draws_iff (f := nextId) Nat.one_pos (fun i j hi hij hj => by omega) rfl n
  · rename_i hid
    have hpos : 0 < strategy.lastId.toNat :=
      Nat.pos_of_ne_zero fun h => hid (UInt16.toNat_inj.mp h)
    apply Run.nodup_draws_iff (by omega)
    · intro i j hi hij hj hsame
      have hnat := congrArg UInt16.toNat hsame
      rw [nextId_iterate hid (by omega), nextId_iterate hid (by omega)] at hnat
      omega
    · have hwrapped : nextId^[65536 - strategy.lastId.toNat] strategy.lastId = 0 := by
        rw [← UInt16.toNat_inj, nextId_iterate hid (by omega)]
        change _ = 0
        omega
      rw [hwrapped]
      rfl

end Counter

section Run

/-- The address bytes that the generator reads. -/
theorem NetAddr.toIpv4_of_le {a : NetAddr} (h : 4 ≤ a.ip.length) : ∃ bytes, a.toIpv4 = .ok bytes := by
  obtain ⟨b0, h0⟩ := readAt_of_lt (show 0 < a.ip.length by omega)
  obtain ⟨b1, h1⟩ := readAt_of_lt (show 1 < a.ip.length by omega)
  obtain ⟨b2, h2⟩ := readAt_of_lt (show 2 < a.ip.length by omega)
  obtain ⟨b3, h3⟩ := readAt_of_lt (show 3 < a.ip.length by omega)
  exact ⟨[b0, b1, b2, b3], by rw [NetAddr.toIpv4, h0, h1, h2, h3]; rfl⟩

/-- A generated header carries the identification that was taken. -/
theorem Ipv4Fields.getIpId_stamped (f : Ipv4Fields) (total : UShort) (src dst : List UByte) :
    Ipv4PacketLittleEndian.getIpId ⟨f.stamped total src dst⟩ = .ok f.id := by
  apply read16_split ([f.first, f.tos] ++ bytes16 total) (bytes16 f.fragment ++ [f.ttl, f.protocol] ++
    bytes16 (f.checksum total src dst) ++ src ++ dst) _ rfl
  simp only [Ipv4Fields.stamped, Ipv4Fields.header, List.append_assoc]

/-- One call of the generator. -/
theorem Ipv4Request.generated (strategy : Ipv4DefaultGenStrategy) (r : Ipv4Request) :
    ∃ header, Ipv4PacketLittleEndian.generateObjectBytes strategy r.src r.dst r.proto r.totalLength
        r.df r.mf r.offset = .ok (header, (strategy.taken r.mf r.offset).2) ∧
      Ipv4PacketLittleEndian.getIpId ⟨header⟩ = .ok (strategy.taken r.mf r.offset).1 := by
  obtain ⟨s, hsrc⟩ := NetAddr.toIpv4_of_le r.src_readable
  obtain ⟨d, hdst⟩ := NetAddr.toIpv4_of_le r.dst_readable
  exact ⟨_, generateObjectBytes_taken strategy hsrc hdst r.proto r.totalLength r.df r.mf r.offset,
    Ipv4Fields.getIpId_stamped _ _ _ _⟩

/-- A fragment takes the last identification and leaves the strategy alone. -/
theorem Ipv4DefaultGenStrategy.taken_fragment (strategy : Ipv4DefaultGenStrategy) {r : Ipv4Request}
    (h : ¬ r.Unfragmented) : strategy.taken r.mf r.offset = (strategy.lastId, strategy) :=
  if_neg fun htaken => h ⟨htaken.1, htaken.2.1⟩

/-- An unfragmented packet takes the next identification, and the strategy remembers it. -/
theorem Ipv4DefaultGenStrategy.taken_unfragmented (strategy : Ipv4DefaultGenStrategy)
    {r : Ipv4Request} (h : r.Unfragmented) :
    strategy.taken r.mf r.offset = (nextId strategy.lastId, ⟨nextId strategy.lastId⟩) := by
  rw [Ipv4DefaultGenStrategy.taken, nextId, Ipv4DefaultGenStrategy.getId]
  by_cases hzero : strategy.lastId = 0
  · rw [if_neg fun htaken => htaken.2.2 hzero, if_pos hzero, ← hzero]
  · rw [if_pos ⟨h.1, h.2, hzero⟩, if_neg hzero]
    rfl

/-- A run is its first call and the run behind it. -/
theorem generateRun_cons {strategy after : Ipv4DefaultGenStrategy} {r : Ipv4Request}
    {requests : List Ipv4Request} {header : List UByte} {run : List GeneratedHeader}
    (hgenerated : Ipv4PacketLittleEndian.generateObjectBytes strategy r.src r.dst r.proto
      r.totalLength r.df r.mf r.offset = .ok (header, after))
    (hrun : generateRun after requests = .ok run) :
    generateRun strategy (r :: requests) = .ok (⟨r, strategy, header, after⟩ :: run) := by
  rw [generateRun, hgenerated, ok_bind]
  dsimp only
  rw [hrun, ok_bind]
  rfl

/-- Every run returns. Its unfragmented packets carry the identifications that the strategy takes
one after the other, and its fragments leave the strategy alone. -/
theorem generateRun_ids (strategy : Ipv4DefaultGenStrategy) (requests : List Ipv4Request) :
    ∃ run, generateRun strategy requests = .ok run ∧
      unfragmentedIds run = .ok ((List.range (requests.countP fun r => r.Unfragmented)).map
        fun k => nextId^[k + 1] strategy.lastId) ∧
      ∀ g ∈ run, ¬ g.request.Unfragmented → g.after = g.before := by
  induction requests generalizing strategy with
  | nil => exact ⟨[], rfl, rfl, fun g hg => nomatch hg⟩
  | cons r requests ih =>
    obtain ⟨header, hgenerated, hid⟩ := r.generated strategy
    by_cases hr : r.Unfragmented
    · rw [strategy.taken_unfragmented hr] at hgenerated hid
      obtain ⟨run, hrun, hids, hkept⟩ := ih ⟨nextId strategy.lastId⟩
      refine ⟨⟨r, strategy, header, ⟨nextId strategy.lastId⟩⟩ :: run, ?_, ?_, ?_⟩
      · exact generateRun_cons hgenerated hrun
      · rw [unfragmentedIds, List.filter_cons_of_pos (by simpa using hr), List.mapM_cons, hid,
          ok_bind, ← unfragmentedIds, hids, List.countP_cons_of_pos (by simpa using hr),
          List.range_succ_eq_map, List.map_cons, List.map_map]
        rfl
      · intro g hg hfragment
        cases hg with
        | head => exact absurd hr hfragment
        | tail _ hg => exact hkept g hg hfragment
    · rw [strategy.taken_fragment hr] at hgenerated hid
      obtain ⟨run, hrun, hids, hkept⟩ := ih strategy
      refine ⟨⟨r, strategy, header, strategy⟩ :: run, ?_, ?_, ?_⟩
      · exact generateRun_cons hgenerated hrun
      · rw [unfragmentedIds, List.filter_cons_of_neg (by simpa using hr), ← unfragmentedIds, hids,
          List.countP_cons_of_neg (by simpa using hr)]
      · intro g hg hfragment
        cases hg with
        | head => rfl
        | tail _ hg => exact hkept g hg hfragment

end Run

/-- A run whose identifications progress has no more unfragmented packets than the strategy has
identifications left. -/
theorem IdsProgress.le_left {strategy : Ipv4DefaultGenStrategy} {requests : List Ipv4Request}
    (h : IdsProgress strategy requests) :
    (requests.countP fun r => r.Unfragmented) ≤ strategy.left := by
  obtain ⟨run, ids, hrun, hids, hnodup, -⟩ := h
  obtain ⟨run', hrun', hids', -⟩ := generateRun_ids strategy requests
  cases hrun.symm.trans hrun'
  cases hids.symm.trans hids'
  exact (nodup_nextIds_iff strategy _).mp hnodup

/-- The identifications of a run progress exactly when it has no more unfragmented packets than the
strategy has identifications left, which is one for a strategy as it is constructed. -/
theorem idsProgress_iff (strategy : Ipv4DefaultGenStrategy) (requests : List Ipv4Request) :
    IdsProgress strategy requests ↔
      (requests.countP fun r => r.Unfragmented) ≤ strategy.left := by
  constructor
  · exact IdsProgress.le_left
  · intro hleft
    obtain ⟨run, hrun, hids, hkept⟩ := generateRun_ids strategy requests
    exact ⟨run, _, hrun, hids, (nodup_nextIds_iff strategy _).mpr hleft, hkept⟩

/-- Two unfragmented packets of a new strategy both carry zero. -/
theorem idsProgress_fails : ¬ IdsProgress .default (List.replicate 2
    ⟨⟨[10, 0, 0, 1]⟩, ⟨[10, 0, 0, 2]⟩, .UDP, 100, false, false, 0, by decide, by decide⟩) := by
  intro h
  exact absurd h.le_left (by decide)

end QVPN
