import QVPN.Driver.Codec
import QVPN.Lib.Run

/-!
# Loss, duplication and reuse of ids

A sender numbers its packets modulo 256 and cuts each into fragments. The network hands any
fragment of any packet to the receiver, any number of times and in any order; what it never
hands over is lost. Half-received packets stay in the receiver's manager and meet later
fragments under the same id.

The receiver neither checks that a fragment belongs to the packet whose builder it finds nor
that it is new. The ledger below records which fragments were combined in a builder, so that a
forged packet can be told from a genuine one.
-/

namespace QVPN

open Memory QVPNPacketManager

/-- A fragment as it is announced. -/
structure Fragment where
  offset : UShort
  size : UShort
  body : List UByte
  deriving DecidableEq, Repr

/-- The message that carries a fragment under an id. -/
def Fragment.message (f : Fragment) (id : UByte) : List UByte :=
  PacketBuilderData.bytes ⟨id, f.offset, f.size⟩ ++ f.body

/-- A packet and the fragments it is sent in. -/
structure SentPacket where
  raw : List UByte
  fragments : List Fragment
  deriving DecidableEq, Repr

namespace SentPacket

def parts (p : SentPacket) : List (List UByte) := p.fragments.map Fragment.body

/-- The fragments are a cut of the packet: nothing is left out, every header admits its body, and
the size that a fragment announces is not the size of some, but not all, of the fragments. -/
structure Cut (p : SentPacket) : Prop where
  raw_eq : p.parts.flatten = p.raw
  admitted : ∀ f ∈ p.fragments, Admitted f.offset f.size f.body
  size_all : ∀ (i : ℕ) (f : Fragment), p.fragments[i]? = some f → ∀ D : ℕ → Bool, D i = true →
    (Fragments.gather p.parts D).length = f.size.toNat → ∀ j < p.fragments.length, D j = true

end SentPacket

/-- A sender, the receiver's manager, which fragments are combined in its builders, and what was
popped from it, each packet with the fragments it was combined of. A fragment is named by the
number of its packet and its own. -/
structure Session where
  firstId : UByte
  sent : List SentPacket
  manager : QVPNPacketManager
  ledger : UByte → List (ℕ × ℕ)
  popped : List (List UByte × List (ℕ × ℕ))

inductive SessionAction where
  | send (p : SentPacket)
  | deliver (k i : ℕ)
  | pop

namespace Session

/-- Nothing sent and nothing received. -/
def start (firstId : UByte) (order : IterationOrder) : Session :=
  ⟨firstId, [], initial order, fun _ => [], []⟩

/-- Packet ids count modulo 256. -/
def packetId (s : Session) (k : ℕ) : UByte := s.firstId + UInt8.ofNat k

def step (s : Session) : SessionAction → Except Fault Session
  | .send p => .ok { s with sent := s.sent ++ [p] }
  | .deliver k i => do
    let p ← readAt s.sent k
    let f ← readAt p.fragments i
    let id := s.packetId k
    return { s with
      manager := (s.manager.buildPacket (f.message id)).2
      ledger := Function.update s.ledger id (s.ledger id ++ [(k, i)]) }
  | .pop => do
    let id := s.manager.haveFullPackets.2.cached
    let (packet, m) ← s.manager.popIfFull
    match packet with
    | none => return { s with manager := m }
    | some bytes => return { s with
        manager := m
        ledger := fun id => if m.packets id = none then [] else s.ledger id
        popped := s.popped ++ [(bytes, (id.map s.ledger).getD [])] }

/-- A fragment meets no builder, or that of its own packet, which does not hold it yet and in
which the search for its offset stops where it belongs. -/
def Fits (s : Session) (k i : ℕ) (p : SentPacket) (f : Fragment) : Prop :=
  s.ledger (s.packetId k) = [] ∨
    (∀ e ∈ s.ledger (s.packetId k), e.1 = k) ∧ (k, i) ∉ s.ledger (s.packetId k) ∧
      ∀ pb, s.manager.packets (s.packetId k) = some pb →
        PacketBuilder.find pb.data f.offset =
          Fragments.place p.parts (fun j => decide ((k, j) ∈ s.ledger (s.packetId k))) i

/-- Packets are cut without a gap, and every delivered fragment fits. -/
def Guard (s : Session) : SessionAction → Prop
  | .send p => p.Cut
  | .deliver k i => ∀ p f, s.sent[k]? = some p → p.fragments[i]? = some f → s.Fits k i p f
  | .pop => True

/-- Every popped packet is one that was sent, combined of all its fragments, each of them once. -/
def Genuine (s : Session) : Prop :=
  ∀ e ∈ s.popped, ∃ (k : ℕ) (p : SentPacket) (order : List ℕ), s.sent[k]? = some p ∧
    e.1 = p.raw ∧ e.2 = order.map (fun i => (k, i)) ∧
    order.Perm (List.range p.fragments.length)

/-- A builder holds some fragments of one packet, in the order of the packet; it is full only
with all of them. -/
def Collecting (s : Session) (id : UByte) : Prop :=
  ∃ (k : ℕ) (p : SentPacket) (order : List ℕ) (first : ℕ) (f : Fragment) (full : Bool),
    s.sent[k]? = some p ∧ s.ledger id = order.map (fun i => (k, i)) ∧ order.Nodup ∧
    (∀ i ∈ order, i < p.fragments.length) ∧ first ∈ order ∧ p.fragments[first]? = some f ∧
    s.manager.packets id = some ⟨f.size, Fragments.gather p.parts (fun j => decide (j ∈ order)), full⟩ ∧
    (full = true → ∀ j < p.fragments.length, j ∈ order)

/-- What guarded steps preserve. -/
structure Inv (s : Session) : Prop where
  cut : ∀ p ∈ s.sent, p.Cut
  builders : ∀ id, s.ledger id = [] ∧ s.manager.packets id = none ∨ s.Collecting id
  genuine : s.Genuine

variable {s s' : Session} {id : UByte}

/-- At the start nothing is held and nothing was popped. -/
theorem inv_start (firstId : UByte) (order : IterationOrder) : (start firstId order).Inv where
  cut := by simp [start]
  builders := fun _ => Or.inl ⟨rfl, rfl⟩
  genuine := by simp [Genuine, start]

/-- Packets already sent keep their numbers. -/
theorem getElem?_sent_concat {sent : List SentPacket} {k : ℕ} {p : SentPacket} (q : SentPacket)
    (h : sent[k]? = some p) : (sent ++ [q])[k]? = some p := by
  have hk : k < sent.length := (List.getElem?_eq_some_iff.mp h).1
  rw [List.getElem?_append_left hk, h]

/-- Sending changes neither the builders nor what was popped. -/
theorem Inv.send {p : SentPacket} (h : s.Inv) (hp : p.Cut) :
    Inv { s with sent := s.sent ++ [p] } where
  cut := by
    intro q hq
    rcases List.mem_append.mp hq with hq | hq
    · exact h.cut q hq
    · rwa [List.mem_singleton.mp hq]
  builders := by
    intro id
    rcases h.builders id with hnone | ⟨k, q, order, first, f, full, hk, hrest⟩
    · exact Or.inl hnone
    · exact Or.inr ⟨k, q, order, first, f, full, getElem?_sent_concat p hk, hrest⟩
  genuine := by
    intro e he
    obtain ⟨k, q, order, hk, hrest⟩ := h.genuine e he
    exact ⟨k, q, order, getElem?_sent_concat p hk, hrest⟩

/-- A fragment carries the part of its position. -/
theorem SentPacket.parts_getElem {p : SentPacket} {i : ℕ} {f : Fragment}
    (hi : p.fragments[i]? = some f) :
    i < p.fragments.length ∧ ∃ hparts : i < p.parts.length, p.parts[i] = f.body := by
  obtain ⟨hlt, hget⟩ := List.getElem?_eq_some_iff.mp hi
  exact ⟨hlt, by simpa [SentPacket.parts] using hlt, by simp [SentPacket.parts, hget]⟩

/-- The fragment that starts a builder. -/
theorem collecting_new {k i : ℕ} {p : SentPacket} {f : Fragment} (hk : s.sent[k]? = some p)
    (hcut : p.Cut) (hi : p.fragments[i]? = some f) (hledger : s.ledger id = [])
    (hnone : s.manager.packets id = none) :
    Collecting { s with
      manager := (s.manager.buildPacket (f.message id)).2
      ledger := Function.update s.ledger id (s.ledger id ++ [(k, i)]) } id := by
  obtain ⟨hlt, hparts, hbody⟩ := SentPacket.parts_getElem hi
  have hempty : ∀ parts : List (List UByte), Fragments.gather parts (fun _ => false) = [] :=
    fun parts => Fragments.gather_none parts fun _ _ => rfl
  have hfind : PacketBuilder.find (Fragments.gather p.parts fun _ => false) f.offset =
      Fragments.place p.parts (fun _ => false) i := by
    rw [Fragments.place, hempty, hempty]
    rfl
  have hmark : Function.update (fun _ => false) i true = fun j => decide (j ∈ [i]) := by
    have hmem := Fragments.mem_concat_eq_update [] i
    simpa using hmem.symm
  have hbuilder := PacketBuilder.addData_gather f.size false hparts rfl hfind
  rw [hempty, hbody, hmark] at hbuilder
  have hadm := hcut.admitted f (List.mem_of_getElem? hi)
  refine ⟨k, p, [i], i, f,
    false || (Fragments.gather p.parts fun j => decide (j ∈ [i])).length == f.size.toNat,
    hk, by simp [hledger], by simp, by simpa using hlt, by simp, hi, ?_, ?_⟩
  · rw [Fragment.message, buildPacket_new hadm hnone, PacketBuilder.ofFragment, hbuilder]
    exact Function.update_self ..
  · intro hfull j hj
    have hlen : (Fragments.gather p.parts fun j => decide (j ∈ [i])).length = f.size.toNat := by
      simpa using hfull
    have hall := hcut.size_all i f hi _ (by simp) hlen j hj
    simpa using hall

/-- A fitting fragment of the packet whose builder it meets. -/
theorem collecting_add {k i first : ℕ} {p : SentPacket} {f g : Fragment} {order : List ℕ}
    {full : Bool} (hk : s.sent[k]? = some p) (hcut : p.Cut) (hi : p.fragments[i]? = some f)
    (hledger : s.ledger id = order.map (fun i => (k, i))) (hnodup : order.Nodup)
    (hbound : ∀ i ∈ order, i < p.fragments.length) (hfirst : first ∈ order)
    (hg : p.fragments[first]? = some g)
    (hpb : s.manager.packets id =
      some ⟨g.size, Fragments.gather p.parts (fun j => decide (j ∈ order)), full⟩)
    (hfull : full = true → ∀ j < p.fragments.length, j ∈ order) (hnew : i ∉ order)
    (hfind : PacketBuilder.find (Fragments.gather p.parts (fun j => decide (j ∈ order))) f.offset =
      Fragments.place p.parts (fun j => decide (j ∈ order)) i) :
    Collecting { s with
      manager := (s.manager.buildPacket (f.message id)).2
      ledger := Function.update s.ledger id (s.ledger id ++ [(k, i)]) } id := by
  obtain ⟨hlt, hparts, hbody⟩ := SentPacket.parts_getElem hi
  have hbuilder := PacketBuilder.addData_gather g.size full hparts
    (by simpa using hnew) hfind
  rw [hbody, ← Fragments.mem_concat_eq_update] at hbuilder
  have hadm := hcut.admitted f (List.mem_of_getElem? hi)
  refine ⟨k, p, order ++ [i], first, g,
    full || (Fragments.gather p.parts fun j => decide (j ∈ order ++ [i])).length == g.size.toNat,
    hk, by simp [hledger], ?_, ?_, by simp [hfirst], hg, ?_, ?_⟩
  · exact List.nodup_append.mpr ⟨hnodup, by simp, by simpa using fun j hj => ne_of_mem_of_not_mem hj hnew⟩
  · intro j hj
    rcases List.mem_append.mp hj with hj | hj
    · exact hbound j hj
    · rwa [List.mem_singleton.mp hj]
  · rw [Fragment.message, buildPacket_add hadm hpb, hbuilder]
    exact Function.update_self ..
  · intro hdone j hj
    -- a full builder would hold the new fragment already
    have hopen : full = false := by
      by_contra h
      exact hnew (hfull (by simpa using h) i hlt)
    have hlen : (Fragments.gather p.parts fun j => decide (j ∈ order ++ [i])).length =
        g.size.toNat := by
      simpa [hopen] using hdone
    have hall := hcut.size_all first g hg _ (by simp [hfirst]) hlen j hj
    simpa using hall

/-- What is known of other ids survives a change of one id. -/
theorem Collecting.of_eq {t : Session} (h : s.Collecting id) (hsent : t.sent = s.sent)
    (hledger : t.ledger id = s.ledger id)
    (hpackets : t.manager.packets id = s.manager.packets id) : t.Collecting id := by
  rw [Collecting, hsent, hledger, hpackets]
  exact h

theorem Collecting.exists_builder (h : s.Collecting id) :
    ∃ pb, s.manager.packets id = some pb := by
  obtain ⟨_, _, _, _, _, _, -, -, -, -, -, -, hpb, -⟩ := h
  exact ⟨_, hpb⟩

/-- A fitting delivery leaves every builder with parts of one packet. -/
theorem Inv.deliver {k i : ℕ} {p : SentPacket} {f : Fragment} (h : s.Inv)
    (hk : s.sent[k]? = some p) (hi : p.fragments[i]? = some f) (hfits : s.Fits k i p f) :
    Inv { s with
      manager := (s.manager.buildPacket (f.message (s.packetId k))).2
      ledger := Function.update s.ledger (s.packetId k)
        (s.ledger (s.packetId k) ++ [(k, i)]) } where
  cut := h.cut
  builders := by
    have hcut := h.cut p (List.mem_of_getElem? hk)
    have hadm := hcut.admitted f (List.mem_of_getElem? hi)
    intro other
    by_cases hother : other = s.packetId k
    · right
      rw [hother]
      rcases h.builders (s.packetId k) with ⟨hledger, hnone⟩ | hcollecting
      · exact collecting_new hk hcut hi hledger hnone
      · obtain ⟨k', q, order, first, g, full, hk', hledger, hnodup, hbound, hfirst, hg, hpb, hfull⟩ :=
          hcollecting
        have hmem (j : ℕ) (hj : j ∈ order) : (k', j) ∈ s.ledger (s.packetId k) := by
          rw [hledger]
          exact List.mem_map_of_mem hj
        rcases hfits with hempty | ⟨hsame, hnew, hfind⟩
        · exact absurd (hmem first hfirst) (by simp [hempty])
        · obtain rfl : k' = k := hsame _ (hmem first hfirst)
          obtain rfl : q = p := Option.some.inj (hk'.symm.trans hk)
          have hheld : (fun j => decide ((k', j) ∈ s.ledger (s.packetId k'))) =
              fun j => decide (j ∈ order) := by
            funext j
            rw [hledger]
            simp
          rw [hheld] at hfind
          exact collecting_add hk hcut hi hledger hnodup hbound hfirst hg hpb hfull
            (fun hi => hnew (hmem i hi)) (hfind _ hpb)
    · have hpackets := buildPacket_other (m := s.manager) hadm hother
      have hledger := Function.update_of_ne hother (s.ledger (s.packetId k) ++ [(k, i)]) s.ledger
      rcases h.builders other with ⟨hempty, hnone⟩ | hcollecting
      · exact Or.inl ⟨hledger.trans hempty, hpackets.trans hnone⟩
      · exact Or.inr (hcollecting.of_eq rfl hledger hpackets)
  genuine := h.genuine

/-- A popped builder held all the fragments of its packet. -/
theorem Inv.pop {pb : PacketBuilder} (h : s.Inv) (hid : s.manager.packets id = some pb)
    (hisFull : pb.isFull = true) :
    Inv { s with
      manager := { s.manager with
        packets := Function.update s.manager.packets id none, cached := none }
      ledger := fun other => if Function.update s.manager.packets id none other = none then []
        else s.ledger other
      popped := s.popped ++ [(pb.data, s.ledger id)] } where
  cut := h.cut
  builders := by
    intro other
    by_cases hother : other = id
    · left
      simp [hother]
    · rcases h.builders other with ⟨hempty, hnone⟩ | hcollecting
      · left
        simp [hother, hnone]
      · right
        obtain ⟨pb, hpb⟩ := hcollecting.exists_builder
        have hne := Function.update_of_ne hother none s.manager.packets
        refine hcollecting.of_eq rfl ?_ hne
        simp only [hne, hpb]
        rfl
  genuine := by
    intro e he
    rcases List.mem_append.mp he with he | he
    · exact h.genuine e he
    · obtain rfl := List.mem_singleton.mp he
      rcases h.builders id with ⟨-, hnone⟩ | hcollecting
      · rw [hnone] at hid
        cases hid
      · obtain ⟨k, p, order, _, _, full, hk, hledger, hnodup, hbound, -, -, hpb, hfull⟩ := hcollecting
        obtain rfl := Option.some.inj (hid.symm.trans hpb)
        have hall := hfull hisFull
        have hcut := h.cut p (List.mem_of_getElem? hk)
        refine ⟨k, p, order, hk, ?_, hledger, ?_⟩
        · rw [← hcut.raw_eq]
          exact Fragments.gather_all fun j hj => by
            simpa using hall j (by simpa [SentPacket.parts] using hj)
        · refine (List.perm_ext_iff_of_nodup hnodup List.nodup_range).mpr fun j => ?_
          rw [List.mem_range]
          exact ⟨hbound j, hall j⟩

/-- Every guarded step preserves the invariant. -/
theorem Inv.step {a : SessionAction} (h : s.Inv) (hguard : s.Guard a)
    (hstep : s.step a = .ok s') : s'.Inv := by
  cases a with
  | send p =>
    cases Except.ok.inj hstep
    exact h.send hguard
  | deliver k i =>
    obtain ⟨p, hk, hstep⟩ := bind_eq_ok_iff.mp hstep
    obtain ⟨f, hi, hstep⟩ := bind_eq_ok_iff.mp hstep
    cases Except.ok.inj hstep
    rw [readAt_eq_ok_iff] at hk hi
    exact h.deliver hk hi (hguard p f hk hi)
  | pop =>
    obtain ⟨⟨packet, m⟩, hpop, hstep⟩ := bind_eq_ok_iff.mp hstep
    rcases popIfFull_cases hpop with ⟨rfl, rfl⟩ | ⟨id, pb, hcached, hid, hfull, rfl, rfl⟩
    · cases Except.ok.inj hstep
      exact h
    · have hpopped := h.pop hid hfull
      rw [hcached] at hstep
      cases Except.ok.inj hstep
      exact hpopped

end Session

open Session

/-- In every run whose fragments fit, every packet the receiver pops is one the sender sent, made
of its own fragments, each of them once. -/
theorem fitting_runs_are_genuine (firstId : UByte) (order : IterationOrder) (s : Session)
    (hrun : Run.Reaches (fun s a s' => step s a = .ok s') Guard (start firstId order) s) :
    s.Genuine :=
  have hinv : s.Inv := hrun.invariant (inv_start firstId order)
    fun _ _ _ hinv hguard hstep => hinv.step hguard hstep
  hinv.genuine

/-- A packet as the drivers cut it: in one fragment, or in two that announce different sizes. -/
def tunnelPacket (proxy : QTunnelProxy) (payload : List UByte) : SentPacket where
  raw := proxy.encode payload
  fragments :=
    if payload.length < 65229 then
      [⟨0, UInt16.ofNat (proxy.encode payload).length, proxy.encode payload⟩]
    else
      [⟨0, 65230 + UInt16.ofNat (proxy.encode []).length, proxy.encode (payload.take 32615)⟩,
        ⟨32615, 65230, payload.drop 32615⟩]

/-- Its fragments are what the records of the encoder carry. -/
theorem packetRecords_eq (id : UByte) (proxy : QTunnelProxy) (payload : List UByte) :
    packetRecords id proxy payload = (tunnelPacket proxy payload).fragments.map fun f =>
      TLS13Record.generateObjectBytes (f.message id) := by
  rw [packetRecords, tunnelPacket]
  split <;> rfl

/-- A single fragment that announces its own size is a cut. -/
theorem cut_single {raw : List UByte} (hne : raw ≠ []) (hsize : raw.length ≤ 65535) :
    SentPacket.Cut ⟨raw, [⟨0, UInt16.ofNat raw.length, raw⟩]⟩ where
  raw_eq := by simp [SentPacket.parts]
  admitted := by
    intro f hf
    obtain rfl := List.mem_singleton.mp hf
    refine ⟨hne, ?_⟩
    simp
    omega
  size_all := by
    intro i f hi D hD _ j hj
    have hlt := (List.getElem?_eq_some_iff.mp hi).1
    simp only [List.length_cons, List.length_nil] at hlt hj
    rwa [show j = i by omega]

/-- Two fragments of which the first announces all and the second too little are a cut. -/
theorem cut_pair {front back : List UByte} {offset size₁ size₂ : UShort} (hfront : front ≠ [])
    (hback : back ≠ []) (hsize₁ : size₁.toNat = front.length + back.length)
    (hsize₂ : size₂.toNat < size₁.toNat) (hadm : back.length + offset.toNat ≤ size₂.toNat)
    (hoffset : 0 < offset.toNat) :
    SentPacket.Cut ⟨front ++ back, [⟨0, size₁, front⟩, ⟨offset, size₂, back⟩]⟩ where
  raw_eq := by simp [SentPacket.parts]
  admitted := by
    intro f hf
    simp only [List.mem_cons, List.not_mem_nil, or_false] at hf
    rcases hf with rfl | rfl
    · refine ⟨hfront, ?_⟩
      simp
      omega
    · exact ⟨hback, hadm⟩
  size_all := by
    have hposf := List.length_pos_iff.mpr hfront
    have hposb := List.length_pos_iff.mpr hback
    have hlength (D : ℕ → Bool) : (Fragments.gather [front, back] D).length =
        (if D 0 then front.length else 0) + (if D 1 then back.length else 0) := by
      cases h0 : D 0 <;> cases h1 : D 1 <;> simp [Fragments.gather, h0, h1]
    intro i f hi D hD hlen j hj
    change (Fragments.gather [front, back] D).length = f.size.toNat at hlen
    rw [hlength] at hlen
    simp only [List.length_cons, List.length_nil] at hj
    have hlt := (List.getElem?_eq_some_iff.mp hi).1
    simp only [List.length_cons, List.length_nil] at hlt
    rcases show i = 0 ∨ i = 1 by omega with rfl | rfl
    · cases Option.some.inj hi
      rw [if_pos hD] at hlen
      by_cases h1 : D 1
      · rcases show j = 0 ∨ j = 1 by omega with rfl | rfl <;> assumption
      · rw [if_neg h1] at hlen
        dsimp only at hlen
        omega
    · cases Option.some.inj hi
      rw [if_pos hD] at hlen
      dsimp only at hlen
      by_cases h0 : D 0
      · rw [if_pos h0] at hlen
        omega
      · rw [if_neg h0] at hlen
        omega

/-- The drivers' packets are cut without a gap as long as the split loses nothing. -/
theorem tunnelPacket_cut {proxy : QTunnelProxy} {payload : List UByte} (hvalid : proxy.Valid)
    (hsize : Lossless payload) : (tunnelPacket proxy payload).Cut := by
  have hproxy := hvalid.encode_nil_length_le
  have hpos := List.length_pos_iff.mpr (proxy.encode_ne_nil [])
  have hlen := proxy.encode_length payload
  rw [tunnelPacket]
  rcases hsize with hsmall | hsplit
  · rw [if_pos hsmall]
    exact cut_single (proxy.encode_ne_nil payload) (by omega)
  · have hfront := proxy.encode_length (payload.take 32615)
    have htake : (payload.take 32615).length = 32615 := by simp [hsplit]
    have hdrop : (payload.drop 32615).length = 32615 := by simp [hsplit]
    have hword : (65230 + UInt16.ofNat (proxy.encode []).length).toNat =
        65230 + (proxy.encode []).length := by
      simp
      omega
    have hraw : proxy.encode payload = proxy.encode (payload.take 32615) ++ payload.drop 32615 := by
      simp only [QTunnelProxy.encode, List.append_assoc, List.take_append_drop]
    rw [if_neg (by omega), hraw]
    refine cut_pair (proxy.encode_ne_nil _) (List.length_pos_iff.mp (by omega)) ?_ ?_ ?_ (by decide)
    · omega
    · rw [hword, show (65230 : UShort).toNat = 65230 from rfl]
      omega
    · rw [hdrop]
      decide

/-- Four bytes in two fragments. -/
def fourBytes : SentPacket where
  raw := [10, 20, 30, 40]
  fragments := [⟨0, 4, [10, 20]⟩, ⟨2, 4, [30, 40]⟩]

theorem fourBytes_cut : fourBytes.Cut where
  raw_eq := rfl
  admitted := by simp [fourBytes, Admitted]
  size_all := by
    intro i f hi D hD hlen
    have hsize : f.size.toNat = fourBytes.parts.flatten.length := by
      have hmem := List.mem_of_getElem? hi
      simp only [fourBytes, List.mem_cons, List.not_mem_nil, or_false] at hmem
      rcases hmem with rfl | rfl <;> rfl
    rw [hsize, Fragments.gather_length_eq_iff (by simp [SentPacket.parts, fourBytes])] at hlen
    exact hlen

/-- The same fragment delivered twice makes a packet that was never sent. -/
theorem fourBytes_forged : ∃ s : Session,
    Run.Reaches (fun s a s' => step s a = .ok s') (fun _ a => ∀ p, a = .send p → p.Cut)
      (start 0 .increasing) s ∧ ¬ s.Genuine := by
  have hsend : ∀ p, SessionAction.send fourBytes = .send p → p.Cut := by
    rintro p ⟨⟩
    exact fourBytes_cut
  refine ⟨_, ((((Run.Reaches.refl _).step (a := .send fourBytes) hsend rfl).step
    (a := .deliver 0 0) (by simp) rfl).step (a := .deliver 0 0) (by simp) rfl).step
    (a := .pop) (by simp) rfl, ?_⟩
  intro hgenuine
  obtain ⟨k, p, order, hk, hraw, -⟩ := hgenuine ([10, 20, 10, 20], [(0, 0), (0, 0)])
    (List.mem_of_getElem? (i := 0) rfl)
  have hp : p ∈ [fourBytes] := List.mem_of_getElem? hk
  rw [List.mem_singleton.mp hp] at hraw
  exact absurd hraw (by decide)

/-- Both fragments in order make the packet that was sent. -/
theorem fitting_runs_are_genuine_fourBytes : ∃ s : Session,
    s.popped = [([10, 20, 30, 40], [(0, 0), (0, 1)])] ∧ s.Genuine := by
  refine ⟨_, ?_, fitting_runs_are_genuine 0 .increasing _ (((((Run.Reaches.refl _).step
    (a := .send fourBytes) fourBytes_cut rfl).step (a := .deliver 0 0) ?_ rfl).step
    (a := .deliver 0 1) ?_ rfl).step (a := .pop) trivial rfl)⟩
  · rfl
  · intro p f _ _
    exact Or.inl rfl
  · rintro p f hp hf
    cases Option.some.inj hp
    cases Option.some.inj hf
    refine Or.inr ⟨?_, ?_, ?_⟩
    · intro e he
      cases List.mem_singleton.mp he
      rfl
    · intro he
      cases List.mem_singleton.mp he
    · intro pb hpb
      cases Option.some.inj hpb
      rfl

end QVPN
