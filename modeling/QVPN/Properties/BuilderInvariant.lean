import QVPN.Driver.PacketManager
import QVPN.Lib.Run

/-!
# What builders hold

A fragment is checked against the size that it announces itself. A builder keeps the size that its
first fragment announced, and takes in every fragment that passes its own check: it grows past its
size, it stays full, and the fragment that completes it is answered like any other. So builders are
consistent, and answers exact, as long as no fragment completes or overfills a builder that is
already there.
-/

namespace QVPN

open BigEndian Memory

namespace QVPNPacketManager

/-- A builder never exceeds its size, and is full with exactly that many bytes. -/
def Consistent (m : QVPNPacketManager) : Prop :=
  ∀ id pb, m.packets id = some pb → pb.data.length ≤ pb.originalSize.toNat ∧
    (pb.isFull = true ↔ pb.data.length = pb.originalSize.toNat)

/-- All bytes of the packet with an id are there. -/
def Complete (m : QVPNPacketManager) (id : UByte) : Prop :=
  ∃ pb, m.packets id = some pb ∧ pb.data.length = pb.originalSize.toNat

end QVPNPacketManager

inductive ManagerAction where
  | build (message : List UByte)
  | haveFull
  | getAndPop
  deriving DecidableEq, Repr

namespace QVPNPacketManager

/-- One call, with the answer of `build_packet`. -/
def call (m : QVPNPacketManager) :
    ManagerAction → Except Fault (Option PacketBuilderSignal × QVPNPacketManager)
  | .build message => .ok (some (m.buildPacket message).1, (m.buildPacket message).2)
  | .haveFull => .ok (none, m.haveFullPackets.2)
  | .getAndPop => do
    let (_, m') ← m.getAndPopPacket
    return (none, m')

/-- What a call should do: leave consistent builders, refuse without a change, and report a packet
as built exactly when this call completed it. -/
structure CallObeys (m : QVPNPacketManager) (a : ManagerAction)
    (signal : Option PacketBuilderSignal) (m' : QVPNPacketManager) : Prop where
  consistent : m'.Consistent
  refused : signal = some .PACKET_NO_BUILDER_DATA → m' = m
  built : ∀ message, a = .build message → (signal = some .PACKET_FULL_BUILD ↔
    ∃ id, message.head? = some id ∧ ¬ m.Complete id ∧ m'.Complete id)

/-- A fragment for a builder that is there leaves it incomplete, and a packet is only taken out when
one was found before or none is full. -/
def LeavesIncomplete (m : QVPNPacketManager) : ManagerAction → Prop
  | .build message => ∀ id offset origSize body pb,
    message = PacketBuilderData.bytes ⟨id, offset, origSize⟩ ++ body →
      Admitted offset origSize body → m.packets id = some pb →
        pb.data.length + body.length < pb.originalSize.toNat
  | .haveFull => True
  | .getAndPop => m.cached = none → ∀ id, m.fullAt id = false

/-- The remembered builder is there. -/
def CacheValid (m : QVPNPacketManager) : Prop :=
  ∀ id, m.cached = some id → ∃ pb, m.packets id = some pb

/-- A new builder is full exactly when its first fragment is the whole packet. -/
theorem ofFragment_eq (offset origSize : UShort) (body : List UByte) :
    PacketBuilder.ofFragment offset origSize body =
      ⟨origSize, body, body.length == origSize.toNat⟩ := by
  simp [PacketBuilder.ofFragment, PacketBuilder.addData]

/-- A fragment adds its bytes, wherever it lands, and may make a builder full. -/
theorem addData_length (pb : PacketBuilder) (offset : UShort) (body : List UByte) :
    (pb.addData offset body).data.length = pb.data.length + body.length := by
  rw [(PacketBuilder.addData_perm pb offset body).length_eq, List.length_append]

theorem addData_isFull (pb : PacketBuilder) (offset : UShort) (body : List UByte) :
    (pb.addData offset body).isFull = true ↔
      pb.isFull = true ∨ pb.data.length + body.length = pb.originalSize.toNat := by
  rw [← addData_length pb offset body, PacketBuilder.addData]
  simp

section Update

variable {m : QVPNPacketManager} {id : UByte} {pb : PacketBuilder}

/-- Changing one builder keeps the others consistent. -/
theorem Consistent.update (h : m.Consistent) (hle : pb.data.length ≤ pb.originalSize.toNat)
    (hfull : pb.isFull = true ↔ pb.data.length = pb.originalSize.toNat) :
    Consistent { m with packets := Function.update m.packets id (some pb) } := by
  intro other pb' hother
  dsimp only at hother
  by_cases hid : other = id
  · rw [hid, Function.update_self] at hother
    cases hother
    exact ⟨hle, hfull⟩
  · rw [Function.update_of_ne hid] at hother
    exact h other pb' hother

/-- A builder that was just stored is complete when its bytes are all there. -/
theorem complete_update : Complete { m with packets := Function.update m.packets id (some pb) } id ↔
    pb.data.length = pb.originalSize.toNat := by
  constructor
  · rintro ⟨pb', hid, hlength⟩
    dsimp only at hid
    rw [Function.update_self] at hid
    cases hid
    exact hlength
  · intro hlength
    exact ⟨pb, Function.update_self id _ _, hlength⟩

/-- Storing a builder keeps the remembered one in its place. -/
theorem CacheValid.update (h : m.CacheValid) :
    CacheValid { m with packets := Function.update m.packets id (some pb) } := by
  intro other hcached
  by_cases hid : other = id
  · exact ⟨pb, by rw [hid]; exact Function.update_self id _ _⟩
  · obtain ⟨pb', hother⟩ := h other hcached
    exact ⟨pb', (Function.update_of_ne hid _ _).trans hother⟩

/-- Erasing a builder keeps the others consistent. -/
theorem Consistent.erase (h : m.Consistent) :
    Consistent { m with packets := Function.update m.packets id none, cached := none } := by
  intro other pb' hother
  dsimp only at hother
  by_cases hid : other = id
  · rw [hid, Function.update_self] at hother
    cases hother
  · rw [Function.update_of_ne hid] at hother
    exact h other pb' hother

end Update

/-- The header of a message and the bytes behind it are determined by the message. -/
theorem bytes_append_inj {pb pb' : PacketBuilderData} {body body' : List UByte}
    (h : pb.bytes ++ body = pb'.bytes ++ body') : pb = pb' ∧ body = body' := by
  obtain ⟨hbytes, hbody⟩ := List.append_inj h rfl
  refine ⟨?_, hbody⟩
  obtain ⟨id, offset, size⟩ := pb
  obtain ⟨id', offset', size'⟩ := pb'
  simp only [PacketBuilderData.bytes, bytes16, List.cons_append, List.nil_append,
    List.cons.injEq, and_true] at hbytes
  obtain ⟨rfl, hhi, hlo, hhi', hlo'⟩ := hbytes
  rw [← join_hi_lo offset, ← join_hi_lo size, hhi, hlo, hhi', hlo', join_hi_lo, join_hi_lo]

section Build

variable {m : QVPNPacketManager} {id : UByte} {offset origSize : UShort} {body : List UByte}

/-- A fragment of a new packet always does what it should. -/
theorem build_new_obeys (hm : m.Consistent) (hadm : Admitted offset origSize body)
    (hid : m.packets id = none) :
    CallObeys m (.build (PacketBuilderData.bytes ⟨id, offset, origSize⟩ ++ body))
      (some (m.buildPacket (PacketBuilderData.bytes ⟨id, offset, origSize⟩ ++ body)).1)
      (m.buildPacket (PacketBuilderData.bytes ⟨id, offset, origSize⟩ ++ body)).2 := by
  have hnone : ¬ m.Complete id := by
    rintro ⟨pb, hpb, -⟩
    rw [hid] at hpb
    cases hpb
  have hle : body.length ≤ origSize.toNat := by
    have hfits := hadm.2
    omega
  rw [buildPacket_admitted_fst hadm, buildPacket_new hadm hid, ofFragment_eq]
  refine ⟨hm.update hle (by simp), ?_, ?_⟩
  · intro hrefused
    split at hrefused
    · cases hrefused
    · cases hrefused
  · intro message hmessage
    cases hmessage
    constructor
    · intro hbuilt
      by_cases hwhole : m.packets id = none ∧ body.length = origSize.toNat
      · exact ⟨id, rfl, hnone, complete_update.mpr hwhole.2⟩
      · rw [if_neg hwhole] at hbuilt
        cases hbuilt
    · rintro ⟨id', hhead, -, hcomplete⟩
      obtain rfl : id = id' := Option.some.inj hhead
      rw [if_pos ⟨hid, complete_update.mp hcomplete⟩]

/-- A fragment for a builder that is there does what it should exactly when it leaves it
incomplete. -/
theorem build_add_obeys {pb : PacketBuilder} (hm : m.Consistent)
    (hadm : Admitted offset origSize body) (hid : m.packets id = some pb) :
    CallObeys m (.build (PacketBuilderData.bytes ⟨id, offset, origSize⟩ ++ body))
      (some (m.buildPacket (PacketBuilderData.bytes ⟨id, offset, origSize⟩ ++ body)).1)
      (m.buildPacket (PacketBuilderData.bytes ⟨id, offset, origSize⟩ ++ body)).2 ↔
        pb.data.length + body.length < pb.originalSize.toNat := by
  have hpos := List.length_pos_iff.mpr hadm.1
  have hlength := addData_length pb offset body
  have hfull := addData_isFull pb offset body
  have hanswer : (if m.packets id = none ∧ body.length = origSize.toNat then
      PacketBuilderSignal.PACKET_FULL_BUILD else .PACKET_PART_RECEIVED) = .PACKET_PART_RECEIVED := by
    rw [hid, if_neg fun h => nomatch h.1]
  rw [buildPacket_admitted_fst hadm, hanswer, buildPacket_add hadm hid]
  constructor
  · intro hobeys
    obtain ⟨hle, -⟩ := hobeys.consistent id _ (Function.update_self id _ _)
    rw [hlength, PacketBuilder.addData_originalSize] at hle
    by_contra hreached
    -- a completing fragment is answered as a part
    have hcomplete : Complete { m with
        packets := Function.update m.packets id (some (pb.addData offset body)) } id := by
      apply complete_update.mpr
      rw [hlength, PacketBuilder.addData_originalSize]
      omega
    have hincomplete : ¬ m.Complete id := by
      rintro ⟨pb', hpb', hall⟩
      rw [hid] at hpb'
      cases hpb'
      omega
    have hbuilt := (hobeys.built _ rfl).mpr ⟨id, rfl, hincomplete, hcomplete⟩
    cases hbuilt
  · intro hincomplete
    have hopen : ¬ (pb.addData offset body).isFull = true := by
      rw [hfull, (hm id pb hid).2]
      omega
    refine ⟨hm.update ?_ ?_, (fun h => nomatch h), ?_⟩
    · rw [hlength, PacketBuilder.addData_originalSize]
      omega
    · rw [hlength, PacketBuilder.addData_originalSize]
      exact iff_of_false hopen (by omega)
    · intro message hmessage
      cases hmessage
      refine iff_of_false (fun h => nomatch h) ?_
      rintro ⟨id', hhead, -, hcomplete⟩
      obtain rfl : id = id' := Option.some.inj hhead
      have hall := complete_update.mp hcomplete
      rw [hlength, PacketBuilder.addData_originalSize] at hall
      omega

end Build

section Call

variable {m m' : QVPNPacketManager} {a : ManagerAction}

/-- Searching for a full builder changes no builder. -/
theorem haveFullPackets_packets (m : QVPNPacketManager) :
    m.haveFullPackets.2.packets = m.packets := by
  unfold haveFullPackets
  cases m.order.ids.find? m.fullAt with
  | none => rfl
  | some id => rfl

/-- Any message does what it should exactly when it leaves the builders that are there
incomplete. -/
theorem build_obeys_iff (hm : m.Consistent) (message : List UByte) :
    CallObeys m (.build message) (some (m.buildPacket message).1) (m.buildPacket message).2 ↔
      m.LeavesIncomplete (.build message) := by
  by_cases hexists : ∃ id offset origSize body,
      message = PacketBuilderData.bytes ⟨id, offset, origSize⟩ ++ body ∧
        Admitted offset origSize body
  · obtain ⟨id, offset, origSize, body, rfl, hadm⟩ := hexists
    cases hid : m.packets id with
    | none =>
      refine iff_of_true (build_new_obeys hm hadm hid) ?_
      intro id' offset' origSize' body' pb hmessage _ hpb
      obtain ⟨hheader, -⟩ := bytes_append_inj hmessage
      cases hheader
      rw [hid] at hpb
      cases hpb
    | some pb =>
      rw [build_add_obeys hm hadm hid]
      constructor
      · intro hlt id' offset' origSize' body' pb' hmessage _ hpb
        obtain ⟨hheader, rfl⟩ := bytes_append_inj hmessage
        cases hheader
        rw [hid] at hpb
        cases hpb
        exact hlt
      · intro h
        exact h id offset origSize body pb rfl hadm hid
  · rw [(m.buildPacket_refused_or message).resolve_right hexists]
    refine iff_of_true ⟨hm, fun _ => rfl, ?_⟩ ?_
    · intro _ _
      refine iff_of_false (fun h => nomatch h) ?_
      rintro ⟨id, -, hincomplete, hcomplete⟩
      exact hincomplete hcomplete
    · intro id offset origSize body pb hmessage hadm _
      exact absurd ⟨id, offset, origSize, body, hmessage, hadm⟩ hexists

/-- A call does what it should exactly when it meets the condition. -/
theorem call_obeys_iff (hm : m.Consistent) (hcache : m.CacheValid) (a : ManagerAction) :
    (∃ signal m', m.call a = .ok (signal, m') ∧ CallObeys m a signal m') ↔
      m.LeavesIncomplete a := by
  cases a with
  | build message =>
    rw [← build_obeys_iff hm message]
    constructor
    · rintro ⟨signal, m', hcall, hobeys⟩
      cases Except.ok.inj hcall
      exact hobeys
    · intro hobeys
      exact ⟨_, _, rfl, hobeys⟩
  | haveFull =>
    refine iff_of_true ⟨_, _, rfl, ?_, (fun h => nomatch h), fun _ h => nomatch h⟩ trivial
    intro id pb hid
    rw [haveFullPackets_packets] at hid
    exact hm id pb hid
  | getAndPop =>
    cases hcached : m.cached with
    | some id =>
      obtain ⟨pb, hpb⟩ := hcache id hcached
      refine iff_of_true ⟨none, m.popLastPacket, ?_, ?_, (fun h => nomatch h), fun _ h => nomatch h⟩
        (fun hnone => nomatch hcached.symm.trans hnone)
      · simp only [call, getAndPopPacket, hcached, hpb]
        rfl
      · rw [popLastPacket, hcached]
        exact hm.erase
    | none =>
      by_cases hany : m.order.ids.any m.fullAt = true
      · obtain ⟨id, -, hfull⟩ := List.any_eq_true.mp hany
        refine iff_of_false ?_ ?_
        · rintro ⟨signal, m', hcall, -⟩
          simp only [call, getAndPopPacket, hcached, if_pos hany] at hcall
          cases hcall
        · intro h
          rw [h hcached id] at hfull
          cases hfull
      · refine iff_of_true ⟨none, m, ?_, hm, (fun h => nomatch h), fun _ h => nomatch h⟩ ?_
        · simp only [call, getAndPopPacket, hcached, if_neg hany]
          rfl
        · intro _ id
          by_contra hfull
          exact hany (List.any_eq_true.mpr ⟨id, m.order.complete id, by simpa using hfull⟩)

/-- The remembered builder stays in its place until it is taken out. -/
theorem call_cacheValid {signal : Option PacketBuilderSignal} (hcache : m.CacheValid)
    (h : m.call a = .ok (signal, m')) : m'.CacheValid := by
  cases a with
  | build message =>
    cases Except.ok.inj h
    obtain hsame | ⟨id, offset, origSize, body, rfl, hadm⟩ := m.buildPacket_cases message
    · rw [hsame]
      exact hcache
    · obtain ⟨pb, hbuilt, -⟩ := buildPacket_admitted m id hadm
      rw [hbuilt]
      exact hcache.update
  | haveFull =>
    cases Except.ok.inj h
    intro id hcached
    rw [haveFullPackets_packets]
    unfold haveFullPackets at hcached
    cases hfind : m.order.ids.find? m.fullAt with
    | none =>
      rw [hfind] at hcached
      exact hcache id hcached
    | some found =>
      rw [hfind] at hcached
      cases hcached
      have hfull := List.find?_some hfind
      cases hid : m.packets id with
      | none => simp [fullAt, hid] at hfull
      | some pb => exact ⟨pb, rfl⟩
  | getAndPop =>
    obtain ⟨⟨pb, next⟩, hpop, h⟩ := bind_eq_ok_iff.mp h
    cases Except.ok.inj h
    unfold getAndPopPacket at hpop
    cases hcached : m.cached with
    | some id =>
      obtain ⟨pb', hpb'⟩ := hcache id hcached
      simp only [hcached, hpb'] at hpop
      cases Except.ok.inj hpop
      rw [popLastPacket, hcached]
      intro other hother
      cases hother
    | none =>
      simp only [hcached] at hpop
      split at hpop
      · cases hpop
      · cases Except.ok.inj hpop
        exact hcache

/-- In every run in which no call completes or overfills a builder that is there, builders are
consistent, and every further call does what it should exactly when it keeps to this. -/
theorem managerRun_obeys {order : IterationOrder}
    (hrun : Run.Reaches (fun s a s' => ∃ signal, s.call a = .ok (signal, s')) LeavesIncomplete
      (initial order) m) :
    m.Consistent ∧ ∀ a, (∃ signal m', m.call a = .ok (signal, m') ∧ CallObeys m a signal m') ↔
      m.LeavesIncomplete a := by
  have hinit : (initial order).Consistent ∧ (initial order).CacheValid :=
    ⟨(fun _ _ h => nomatch h), fun _ h => nomatch h⟩
  obtain ⟨hm, hcache⟩ : m.Consistent ∧ m.CacheValid := by
    apply hrun.invariant hinit
    rintro s a s' ⟨hs, hscache⟩ hguard ⟨signal, hcall⟩
    obtain ⟨signal', s'', hcall', hobeys⟩ := (call_obeys_iff hs hscache a).mpr hguard
    rw [hcall] at hcall'
    cases Except.ok.inj hcall'
    exact ⟨hobeys.consistent, call_cacheValid hscache hcall⟩
  exact ⟨hm, call_obeys_iff hm hcache⟩

end Call

/-- A fragment of one byte of a packet of two, and the whole packet. -/
def halfMessage : List UByte := [5, 0, 0, 0, 2, 9]

def wholeMessage : List UByte := [5, 0, 0, 0, 2, 9, 9]

/-- A packet that arrives whole, is found and taken out. -/
theorem managerRun_whole :
    Consistent ((initial .increasing).buildPacket wholeMessage).2.haveFullPackets.2 :=
  (managerRun_obeys (((Run.Reaches.refl _).step (a := .build wholeMessage)
    (fun _ _ _ _ _ _ _ h => nomatch h) ⟨_, rfl⟩).step (a := .haveFull) trivial ⟨_, rfl⟩)).1

/-- The second half of a packet completes it and is answered as a part; a third half makes the
builder longer than its packet. -/
theorem repeatedHalves_break_builders :
    let one := ((initial .increasing).buildPacket halfMessage).2
    let two := (one.buildPacket halfMessage).2
    let three := (two.buildPacket halfMessage).2
    ¬ one.Complete 5 ∧ two.Complete 5 ∧ (one.buildPacket halfMessage).1 = .PACKET_PART_RECEIVED ∧
      ¬ three.Consistent ∧
      ¬ ∀ order m, Run.Reaches (fun s a s' => ∃ signal, s.call a = .ok (signal, s'))
        (fun _ _ => True) (initial order) m → m.Consistent := by
  intro one two three
  have hone : one.packets 5 = some ⟨2, [9], false⟩ := rfl
  have htwo : two.packets 5 = some ⟨2, [9, 9], true⟩ := rfl
  have hthree : three.packets 5 = some ⟨2, [9, 9, 9], true⟩ := rfl
  have hbroken : ¬ three.Consistent := by
    intro h
    obtain ⟨hle, -⟩ := h 5 _ hthree
    revert hle
    decide
  refine ⟨?_, ⟨_, htwo, rfl⟩, rfl, hbroken, ?_⟩
  · rintro ⟨pb, hpb, hall⟩
    rw [hone] at hpb
    cases hpb
    revert hall
    decide
  · intro h
    apply hbroken
    apply h .increasing
    exact (((Run.Reaches.refl _).step (a := .build halfMessage) trivial ⟨_, rfl⟩).step
      (a := .build halfMessage) trivial ⟨_, rfl⟩).step (a := .build halfMessage) trivial ⟨_, rfl⟩

end QVPNPacketManager

end QVPN
