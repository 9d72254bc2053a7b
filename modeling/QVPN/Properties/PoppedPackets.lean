import QVPN.Properties.BuilderInvariant

/-!
# What popping takes out

A full packet is taken out in two ways. A builder that a search remembered is moved out and erased.
Without one, the loop over the builders erases the one it stands on, so a single full builder is
already enough to go wrong. The remembered builder itself is safe: it is full when it is
remembered, a full builder stays full, and both ways of erasing it forget it.
-/

namespace QVPN

open BigEndian Memory

/-- The calls that may come between two pops, and the pop. -/
inductive PopAction where
  | build (message : List UByte)
  | haveFull
  | getRaw
  | popLast
  | getAndPop
  deriving DecidableEq, Repr

namespace QVPNPacketManager

/-- The manager after a call. -/
def popCall (m : QVPNPacketManager) : PopAction → Except Fault QVPNPacketManager
  | .build message => .ok (m.buildPacket message).2
  | .haveFull => .ok m.haveFullPackets.2
  | .getRaw => do
    let _ ← m.getRawPacket
    return m
  | .popLast => .ok m.popLastPacket
  | .getAndPop => do
    let (_, m') ← m.getAndPopPacket
    return m'

/-- The remembered builder is there and full. -/
def CachedFull (m : QVPNPacketManager) : Prop := ∀ id, m.cached = some id → m.fullAt id = true

/-- No builder is without data. -/
def HoldsData (m : QVPNPacketManager) : Prop := ∀ id pb, m.packets id = some pb → pb.data ≠ []

/-- One full builder was returned as it is held, and nothing else is gone. -/
structure PopsOne (m : QVPNPacketManager) (id : UByte) (pb : PacketBuilder)
    (m' : QVPNPacketManager) : Prop where
  held : m.packets id = some pb
  full : pb.isFull = true
  erased : m' = { m with packets := Function.update m.packets id none, cached := none }

/-- A pop takes out one full builder, and nothing when there is none. -/
def PopsExactly (m : QVPNPacketManager) : Prop :=
  ∃ pb m', m.getAndPopPacket = .ok (pb, m') ∧
    ((∃ id, m.PopsOne id pb m') ∨ (∀ id, m.fullAt id = false) ∧ pb = .default ∧ m' = m)

/-- What is full is a builder that is there. -/
theorem fullAt_eq_true_iff (m : QVPNPacketManager) (id : UByte) :
    m.fullAt id = true ↔ ∃ pb, m.packets id = some pb ∧ pb.isFull = true := by
  rw [fullAt, Option.any_eq_true]

section Build

variable (m : QVPNPacketManager) (id : UByte) {offset origSize : UShort} {body : List UByte}

/-- An admitted fragment leaves a builder that holds data and is full if it was. -/
theorem buildPacket_stored (hadm : Admitted offset origSize body) :
    ∃ pb, (m.buildPacket (PacketBuilderData.bytes ⟨id, offset, origSize⟩ ++ body)).2 =
        { m with packets := Function.update m.packets id (some pb) } ∧
      pb.data ≠ [] ∧ (m.fullAt id = true → pb.isFull = true) := by
  have hpos := List.length_pos_iff.mpr hadm.1
  cases hid : m.packets id with
  | none =>
    refine ⟨_, buildPacket_new hadm hid, ?_, ?_⟩
    · rw [ofFragment_eq]
      exact hadm.1
    · intro hfull
      rw [fullAt, hid] at hfull
      cases hfull
  | some pb =>
    refine ⟨_, buildPacket_add hadm hid, ?_, ?_⟩
    · apply List.ne_nil_of_length_pos
      rw [addData_length]
      omega
    · intro hfull
      rw [fullAt, hid] at hfull
      exact (addData_isFull pb offset body).mpr (Or.inl hfull)

end Build

section Invariants

variable {m m' : QVPNPacketManager} {a : PopAction}

/-- Storing a builder that holds data. -/
theorem HoldsData.update {id : UByte} {pb : Option PacketBuilder} {cached : Option UByte}
    (h : m.HoldsData) (hpb : ∀ pb', pb = some pb' → pb'.data ≠ []) :
    HoldsData { m with packets := Function.update m.packets id pb, cached := cached } := by
  intro other pb' hother
  dsimp only at hother
  by_cases hid : other = id
  · rw [hid, Function.update_self] at hother
    exact hpb pb' hother
  · rw [Function.update_of_ne hid] at hother
    exact h other pb' hother

/-- Forgetting the remembered builder with the builder itself. -/
theorem popLastPacket_invariants (hdata : m.HoldsData) (hcache : m.CachedFull) :
    m.popLastPacket.HoldsData ∧ m.popLastPacket.CachedFull := by
  unfold popLastPacket
  cases hcached : m.cached with
  | none => exact ⟨hdata, hcache⟩
  | some id =>
    constructor
    · apply hdata.update
      intro pb hpb
      cases hpb
    · intro other hother
      cases hother

/-- A message keeps what is remembered full, and every builder holds data. -/
theorem buildPacket_invariants (message : List UByte) (hdata : m.HoldsData)
    (hcache : m.CachedFull) :
    (m.buildPacket message).2.HoldsData ∧ (m.buildPacket message).2.CachedFull := by
  obtain hsame | ⟨id, offset, origSize, body, rfl, hadm⟩ := m.buildPacket_cases message
  · rw [hsame]
    exact ⟨hdata, hcache⟩
  · obtain ⟨pb, hbuilt, hne, hfull⟩ := buildPacket_stored m id hadm
    rw [hbuilt]
    constructor
    · apply hdata.update
      intro pb' hpb'
      cases hpb'
      exact hne
    · intro other hother
      have hbefore := hcache other hother
      rw [fullAt_update]
      by_cases hid : other = id
      · rw [hid] at hbefore
        rw [if_pos hid]
        exact hfull hbefore
      · rw [if_neg hid]
        exact hbefore

/-- A search remembers a full builder. -/
theorem haveFullPackets_cachedFull (hcache : m.CachedFull) : m.haveFullPackets.2.CachedFull := by
  unfold haveFullPackets
  cases hfind : m.order.ids.find? m.fullAt with
  | none => exact hcache
  | some found =>
    intro id hid
    cases hid
    exact List.find?_some (p := m.fullAt) hfind

end Invariants

section Pop

variable {m m' : QVPNPacketManager} {a : PopAction}

/-- What is moved out of a builder that holds data is the builder. -/
theorem moveAssign_default {pb : PacketBuilder} (hne : pb.data ≠ []) :
    PacketBuilder.default.moveAssign pb = pb :=
  if_neg fun h => hne h.symm

/-- With a remembered builder the pop takes it out. -/
theorem getAndPopPacket_cached {id : UByte} {pb : PacketBuilder} (hcached : m.cached = some id)
    (hheld : m.packets id = some pb) (hne : pb.data ≠ []) :
    m.getAndPopPacket = .ok (pb, m.popLastPacket) := by
  simp only [getAndPopPacket, hcached, hheld, moveAssign_default hne]

/-- Without one the loop erases the full builder it stands on. -/
theorem getAndPopPacket_erasing {id : UByte} (hcached : m.cached = none)
    (hfull : m.fullAt id = true) : m.getAndPopPacket = .error .outOfBounds := by
  have hany : m.order.ids.any m.fullAt = true :=
    List.any_eq_true.mpr ⟨id, m.order.complete id, hfull⟩
  simp only [getAndPopPacket, hcached, if_pos hany]

/-- Without a full builder either the pop does nothing. -/
theorem getAndPopPacket_none_full (hcached : m.cached = none) (hnone : ∀ id, m.fullAt id = false) :
    m.getAndPopPacket = .ok (.default, m) := by
  have hany : m.order.ids.any m.fullAt = false :=
    List.any_eq_false.mpr fun id _ => by simp [hnone id]
  simp only [getAndPopPacket, hcached, hany]
  rfl

/-- The bytes shown before a pop are the ones that are popped. -/
theorem getRawPacket_eq_popped {pb : PacketBuilder} (hcache : m.CachedFull) {id : UByte}
    (hcached : m.cached = some id) (hpop : m.getAndPopPacket = .ok (pb, m')) :
    m.getRawPacket = .ok pb.data := by
  obtain ⟨held, hheld, -⟩ := (m.fullAt_eq_true_iff id).mp (hcache id hcached)
  simp only [getAndPopPacket, hcached, hheld] at hpop
  cases Except.ok.inj hpop
  simp only [getRawPacket, hcached, hheld, PacketBuilder.moveAssign_data]

/-- A pop is exact when a builder is remembered, and otherwise when none is full. -/
theorem popsExactly_iff (hdata : m.HoldsData) (hcache : m.CachedFull) :
    m.PopsExactly ↔ (m.cached = none → ∀ id, m.fullAt id = false) := by
  cases hcached : m.cached with
  | some id =>
    obtain ⟨pb, hheld, hfull⟩ := (m.fullAt_eq_true_iff id).mp (hcache id hcached)
    refine iff_of_true ⟨pb, m.popLastPacket, ?_, Or.inl ⟨id, hheld, hfull, ?_⟩⟩ (fun h => nomatch h)
    · exact getAndPopPacket_cached hcached hheld (hdata id pb hheld)
    · rw [popLastPacket, hcached]
  | none =>
    constructor
    · rintro ⟨pb, m', hpop, -⟩ - id
      by_contra hfull
      rw [getAndPopPacket_erasing hcached (by simpa using hfull)] at hpop
      cases hpop
    · intro hnone
      exact ⟨_, m, getAndPopPacket_none_full hcached (hnone rfl), Or.inr ⟨hnone rfl, rfl, rfl⟩⟩

/-- Every call keeps data in the builders and what is remembered full. -/
theorem popCall_invariants (hdata : m.HoldsData) (hcache : m.CachedFull)
    (h : m.popCall a = .ok m') : m'.HoldsData ∧ m'.CachedFull := by
  cases a with
  | build message =>
    cases Except.ok.inj h
    exact buildPacket_invariants message hdata hcache
  | haveFull =>
    cases Except.ok.inj h
    refine ⟨?_, haveFullPackets_cachedFull hcache⟩
    intro id pb hid
    rw [haveFullPackets_packets] at hid
    exact hdata id pb hid
  | getRaw =>
    obtain ⟨_, _, h⟩ := bind_eq_ok_iff.mp h
    cases Except.ok.inj h
    exact ⟨hdata, hcache⟩
  | popLast =>
    cases Except.ok.inj h
    exact popLastPacket_invariants hdata hcache
  | getAndPop =>
    obtain ⟨⟨pb, next⟩, hpop, h⟩ := bind_eq_ok_iff.mp h
    cases Except.ok.inj h
    cases hcached : m.cached with
    | some id =>
      obtain ⟨held, hheld, -⟩ := (m.fullAt_eq_true_iff id).mp (hcache id hcached)
      rw [getAndPopPacket_cached hcached hheld (hdata id held hheld)] at hpop
      cases Except.ok.inj hpop
      exact popLastPacket_invariants hdata hcache
    | none =>
      by_cases hexists : ∃ id, m.fullAt id = true
      · obtain ⟨id, hfull⟩ := hexists
        rw [getAndPopPacket_erasing hcached hfull] at hpop
        cases hpop
      · rw [getAndPopPacket_none_full hcached (by simpa using hexists)] at hpop
        cases Except.ok.inj hpop
        exact ⟨hdata, hcache⟩

/-- In every run the remembered builder is a full one, and a pop is exact when there is a remembered
builder or no full one. -/
theorem popRun_exact {order : IterationOrder}
    (hrun : Run.Reaches (fun s a s' => s.popCall a = .ok s') (fun _ _ => True) (initial order) m) :
    m.CachedFull ∧ (m.PopsExactly ↔ (m.cached = none → ∀ id, m.fullAt id = false)) := by
  have hinit : (initial order).HoldsData ∧ (initial order).CachedFull :=
    ⟨(fun _ _ h => nomatch h), fun _ h => nomatch h⟩
  obtain ⟨hdata, hcache⟩ : m.HoldsData ∧ m.CachedFull := by
    apply hrun.invariant hinit
    rintro s a s' ⟨hsdata, hscache⟩ _ hcall
    exact popCall_invariants hsdata hscache hcall
  exact ⟨hcache, popsExactly_iff hdata hcache⟩

/-- A packet that arrives whole and is found is popped as it came. -/
theorem popRun_whole_found :
    PopsExactly ((initial .increasing).buildPacket wholeMessage).2.haveFullPackets.2 :=
  (popRun_exact (((Run.Reaches.refl _).step (a := .build wholeMessage) trivial rfl).step
    (a := .haveFull) trivial rfl)).2.mpr fun h => nomatch h

/-- A packet that arrives whole cannot be popped before it is searched for. -/
theorem popRun_unsearched_fails :
    let m := ((initial .increasing).buildPacket wholeMessage).2
    Run.Reaches (fun s a s' => s.popCall a = .ok s') (fun _ _ => True) (initial .increasing) m ∧
      m.packets 5 = some ⟨2, [9, 9], true⟩ ∧ m.getAndPopPacket = .error .outOfBounds ∧
      ¬ m.PopsExactly := by
  intro m
  have hfull : m.fullAt 5 = true := rfl
  have hpop : m.getAndPopPacket = .error .outOfBounds := getAndPopPacket_erasing rfl hfull
  refine ⟨(Run.Reaches.refl _).step (a := .build wholeMessage) trivial rfl, rfl, hpop, ?_⟩
  rintro ⟨pb, m', hexact, -⟩
  rw [hpop] at hexact
  cases hexact

end Pop

end QVPNPacketManager

end QVPN
