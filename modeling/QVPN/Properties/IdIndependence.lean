import QVPN.Lib.Interleaving
import QVPN.Properties.Segmentation

/-!
# Packet ids do not influence each other

Between two records no builder of a packet manager is full. Then a record is a matter of the builder
of its own id: whether it completes a packet, what this packet is, and what is held of the id
afterwards depend on this builder only. A manager that decodes any mix of records is so many
builders, each of which decodes the records of its own id.

A builder that holds more than was announced has no way back. Whatever records follow, those of its
id are taken in and never answered.
-/

namespace QVPN

open BigEndian Interleaving Memory QVPNLayersSettings QVPNPacketManager

namespace PacketBuilder

/-- What one builder makes of a message for its id. -/
def takeIn (pb : Option PacketBuilder) : List UByte → Option PacketBuilder
  | _ :: o1 :: o0 :: s1 :: s0 :: b :: rest =>
    let body := b :: rest
    let offset := join o1 o0
    let originalSize := join s1 s0
    if offset.toNat ≥ originalSize.toNat ∨ body.length + offset.toNat > originalSize.toNat then pb
    else some (pb.elim (.ofFragment offset originalSize body) fun pb => pb.addData offset body)
  | _ => pb

/-- The data of a full builder, and what is left of it. -/
def takeOut (pb : Option PacketBuilder) : Option (List UByte) × Option PacketBuilder :=
  if pb.any (·.isFull) then (pb.map PacketBuilder.data, none) else (none, pb)

/-- One builder decodes a record of its id. -/
def decodeOne (layers : QVPNLayersSettings) (pb : Option PacketBuilder) (record : List UByte) :
    Except Fault (Option QTunnelData × Option PacketBuilder) := do
  let res ← layers.layersDecode record
  let (packet, pb) := takeOut (takeIn pb res)
  match packet with
  | some data => do
    let data ← QTunnelData.ofBytes data
    return (some data, pb)
  | none => return (none, pb)

/-- What is left is not full. -/
theorem takeOut_not_full (pb : Option PacketBuilder) :
    (takeOut pb).2.any (·.isFull) = false := by
  rw [takeOut]
  split
  · rfl
  · next hnot => exact Bool.eq_false_iff.mpr hnot

theorem decodeOne_not_full {layers : QVPNLayersSettings} {pb pb' : Option PacketBuilder}
    {record : List UByte} {packet : Option QTunnelData}
    (h : decodeOne layers pb record = .ok (packet, pb')) : pb'.any (·.isFull) = false := by
  obtain ⟨message, -, h⟩ := bind_eq_ok_iff.mp h
  have hleft := takeOut_not_full (takeIn pb message)
  generalize takeOut (takeIn pb message) = taken at h hleft
  obtain ⟨data, left⟩ := taken
  cases data with
  | none =>
    cases Except.ok.inj h
    exact hleft
  | some data =>
    obtain ⟨_, -, h⟩ := bind_eq_ok_iff.mp h
    cases Except.ok.inj h
    exact hleft

end PacketBuilder

open PacketBuilder

namespace QVPNPacketManager

variable {m m' : QVPNPacketManager}

/-- A message is taken in by the builder of its first byte. -/
theorem buildPacket_update (m : QVPNPacketManager) (id : UByte) (rest : List UByte) :
    (m.buildPacket (id :: rest)).2 =
      { m with packets := Function.update m.packets id (takeIn (m.packets id) (id :: rest)) } := by
  match rest with
  | [] | [_] | [_, _] | [_, _, _] | [_, _, _, _] =>
    change m = { m with packets := Function.update m.packets id (m.packets id) }
    rw [Function.update_eq_self]
  | o1 :: o0 :: s1 :: s0 :: b :: rest =>
    rw [buildPacket, takeIn]
    split
    · rw [Function.update_eq_self]
    · cases m.packets id with
      | none => rfl
      | some pb => rfl

/-- When one builder of a settled manager has changed, it is the one that is looked at. -/
theorem popIfFull_update (hm : m.Settled) (id : UByte) (pb : Option PacketBuilder) :
    popIfFull { m with packets := Function.update m.packets id pb } =
      .ok ((takeOut pb).1, { m with packets := Function.update m.packets id (takeOut pb).2 }) := by
  rw [takeOut]
  by_cases hfull : pb.any (·.isFull) = true
  · obtain ⟨pb, rfl⟩ := Option.isSome_iff_exists.mp (Option.isSome_of_any hfull)
    rw [if_pos hfull, popIfFull_of_full (Function.update_self id (some pb) m.packets)
      (by simpa using hfull) (fun other hother => by
        rw [fullAt_update, if_neg hother, hm.none_full]), Function.update_idem, ← hm.not_cached]
    rfl
  · rw [if_neg hfull]
    exact popIfFull_of_none
      (fullAt_of_settled_update hm id pb (Bool.eq_false_iff.mpr hfull)).none_full

end QVPNPacketManager

section Records

variable {layers : QVPNLayersSettings} {m m' : QVPNPacketManager} {record : List UByte}

/-- The id that a record is for, if it can be unwrapped and anything is in it. -/
def recordOwner (layers : QVPNLayersSettings) (record : List UByte) : Option UByte :=
  match layers.layersDecode record with
  | .ok (id :: _) => some id
  | _ => none

/-- A record of an id is decoded by the builder of the id. -/
theorem decodeData_owner (hm : m.Settled) {id : UByte}
    (howner : recordOwner layers record = some id) :
    decodeData layers m record =
      (fun r => (r.1, { m with packets := Function.update m.packets id r.2 })) <$>
        decodeOne layers (m.packets id) record := by
  unfold recordOwner at howner
  cases hres : layers.layersDecode record with
  | error e =>
    rw [hres] at howner
    cases howner
  | ok message =>
    rw [hres] at howner
    cases message with
    | nil => cases howner
    | cons first rest =>
      cases howner
      rw [decodeData, decodeOne, hres, ok_bind, ok_bind, buildPacket_update, popIfFull_update hm,
        ok_bind]
      generalize takeOut (takeIn (m.packets id) (id :: rest)) = taken
      obtain ⟨packet, pb⟩ := taken
      cases packet with
      | none => rfl
      | some data =>
        dsimp only
        cases QTunnelData.ofBytes data with
        | error e => rfl
        | ok data => rfl

/-- Nothing is held of a record without an id. -/
theorem decodeData_no_owner (hm : m.Settled) (howner : recordOwner layers record = none) :
    decodeData layers m record = (fun r => (r.1, m)) <$> decodeOne layers none record ∧
      ∀ r, decodeOne layers none record = .ok r → r.2 = none := by
  unfold recordOwner at howner
  cases hres : layers.layersDecode record with
  | error e =>
    rw [decodeData, decodeOne, hres]
    refine ⟨rfl, ?_⟩
    intro r hr
    cases hr
  | ok message =>
    rw [hres] at howner
    cases message with
    | cons first rest => cases howner
    | nil =>
      have hnone : (m.buildPacket []).2 = m := rfl
      rw [decodeData, decodeOne, hres, ok_bind, ok_bind, hnone, popIfFull_of_none hm.none_full]
      refine ⟨rfl, ?_⟩
      intro r hr
      cases Except.ok.inj hr
      rfl

/-- A settled manager is settled after each record. -/
theorem decodeData_settled {packet : Option QTunnelData} (hm : m.Settled)
    (h : decodeData layers m record = .ok (packet, m')) : m'.Settled := by
  cases howner : recordOwner layers record with
  | none =>
    rw [(decodeData_no_owner hm howner).1] at h
    obtain ⟨r, -, hr⟩ := map_eq_ok_iff.mp h
    cases hr
    exact hm
  | some id =>
    rw [decodeData_owner hm howner] at h
    obtain ⟨⟨answer, pb⟩, hone, hr⟩ := map_eq_ok_iff.mp h
    cases hr
    exact fullAt_of_settled_update hm id pb (decodeOne_not_full hone)

end Records

/-- A manager between two records. -/
abbrev SettledManager := { m : QVPNPacketManager // m.Settled }

namespace SettledManager

/-- Decode a record. -/
def decode (layers : QVPNLayersSettings) (s : SettledManager) (record : List UByte) :
    Except Fault (Option QTunnelData × SettledManager) :=
  match hdecode : decodeData layers s.1 record with
  | .error e => .error e
  | .ok (packet, m) => .ok (packet, ⟨m, decodeData_settled s.2 hdecode⟩)

/-- What is held of an id; of no id, nothing is. -/
def builderOf (s : SettledManager) : Option UByte → Option PacketBuilder
  | none => none
  | some id => s.1.packets id

variable {layers : QVPNLayersSettings}

theorem decode_val (s : SettledManager) (record : List UByte) :
    (fun r => (r.1, r.2.1)) <$> s.decode layers record = decodeData layers s.1 record := by
  unfold decode
  split
  · next h => exact h.symm
  · next h => exact h.symm

/-- Decoding records one after the other. -/
theorem run_decode (s : SettledManager) (records : List (List UByte)) :
    (fun r => (r.1, r.2.1)) <$> run (decode layers) s records =
      decodeRecords layers s.1 records := by
  induction records generalizing s with
  | nil => rfl
  | cons record records ih =>
    rw [run, decodeRecords, ← decode_val]
    cases s.decode layers record with
    | error e => rfl
    | ok r =>
      obtain ⟨packet, t⟩ := r
      change _ = (decodeRecords layers t.1 records >>= fun r => .ok (packet :: r.1, r.2))
      rw [ok_bind, ← ih t]
      dsimp only
      cases run (decode layers) t records with
      | error e => rfl
      | ok r => rfl

/-- The builders of a manager are independent of each other. -/
theorem independent_ids (layers : QVPNLayersSettings) :
    Independent (recordOwner layers) (fun i s => builderOf s i) (decode layers)
      (fun _ => decodeOne layers) where
  own := by
    intro s record
    have hval (f : QVPNPacketManager → Option PacketBuilder) :
        (fun r => (r.1, f r.2.1)) <$> s.decode layers record =
          (fun r => (r.1, f r.2)) <$> decodeData layers s.1 record := by
      rw [← decode_val, Functor.map_map]
    cases howner : recordOwner layers record with
    | none =>
      obtain ⟨hdecode, hnone⟩ := decodeData_no_owner s.2 howner
      refine (hval fun _ => none).trans ?_
      rw [hdecode, Functor.map_map, builderOf]
      cases hone : decodeOne layers none record with
      | error e => rfl
      | ok r =>
        have hr := hnone r hone
        exact congrArg Except.ok (Prod.ext rfl hr.symm)
    | some id =>
      refine (hval fun m => m.packets id).trans ?_
      rw [decodeData_owner s.2 howner, Functor.map_map, builderOf]
      dsimp only
      simp only [Function.update_self]
      exact id_map _
  others := by
    intro s record packet t hstep i hi
    have hdecode : _ = decodeData layers s.1 record := s.decode_val record
    rw [hstep] at hdecode
    cases howner : recordOwner layers record with
    | none =>
      rw [(decodeData_no_owner s.2 howner).1] at hdecode
      obtain ⟨r, -, hr⟩ := map_eq_ok_iff.mp hdecode.symm
      have hsame : s = t := Subtype.ext (congrArg Prod.snd hr)
      rw [hsame]
    | some id =>
      rw [decodeData_owner s.2 howner] at hdecode
      obtain ⟨r, -, hr⟩ := map_eq_ok_iff.mp hdecode.symm
      have hpackets := congrArg (fun r => r.2.packets) hr
      cases i with
      | none => rfl
      | some other =>
        have hother : other ≠ id := by
          intro heq
          exact hi (by rw [howner, heq])
        rw [builderOf, ← hpackets]
        exact Function.update_of_ne hother _ _

/-- A run over records is a run of the decoder. -/
theorem run_of_decodeRecords {s : SettledManager} {records : List (List UByte)}
    {packets : List (Option QTunnelData)} {m : QVPNPacketManager}
    (h : decodeRecords layers s.1 records = .ok (packets, m)) :
    ∃ hm : m.Settled, run (decode layers) s records = .ok (packets, ⟨m, hm⟩) := by
  rw [← run_decode] at h
  obtain ⟨⟨answers, t⟩, hrun, hr⟩ := map_eq_ok_iff.mp h
  cases hr
  exact ⟨t.2, hrun⟩

theorem exists_decodeRecords_iff (s : SettledManager) (records : List (List UByte)) :
    (∃ r, decodeRecords layers s.1 records = .ok r) ↔
      ∃ r, run (decode layers) s records = .ok r := by
  rw [← run_decode]
  cases run (decode layers) s records with
  | error e =>
    exact iff_of_false (fun h => by cases h.choose_spec) (fun h => by cases h.choose_spec)
  | ok r => exact iff_of_true ⟨_, rfl⟩ ⟨_, rfl⟩

end SettledManager

open SettledManager

variable {layers : QVPNLayersSettings}

/-- Decoding any mix of records in any order: the packets that the records of an id complete, and
what is held of the id at the end, are what these records come to alone; they change nothing else.
Decoding faults exactly when it faults on the records of one id, or on the records without one. -/
theorem decodeRecords_by_id {m : QVPNPacketManager} (hm : m.Settled)
    (records : List (List UByte)) :
    (∀ packets m', decodeRecords layers m records = .ok (packets, m') → m'.Settled ∧
      ∀ id, ∃ t, decodeRecords layers m (actionsOf (recordOwner layers) (some id) records) =
          .ok (answersOf (recordOwner layers) (some id) records packets, t) ∧
        t.packets id = m'.packets id ∧ ∀ other, other ≠ id → t.packets other = m.packets other) ∧
    ((∃ r, decodeRecords layers m records = .ok r) ↔
      ∀ owner, ∃ r, decodeRecords layers m (actionsOf (recordOwner layers) owner records) =
        .ok r) := by
  have hids := independent_ids layers
  refine ⟨?_, ?_⟩
  · intro packets m' hdecode
    obtain ⟨hm', hrun⟩ := run_of_decodeRecords (s := ⟨m, hm⟩) hdecode
    refine ⟨hm', ?_⟩
    intro id
    obtain ⟨t, halone, hself, hothers⟩ := hids.run_alone hrun (some id)
    refine ⟨t.1, ?_, hself, ?_⟩
    · rw [← run_decode ⟨m, hm⟩, halone]
      rfl
    · intro other hother
      exact hothers (some other) (by simpa using hother)
  · rw [exists_decodeRecords_iff ⟨m, hm⟩, hids.run_iff_alone]
    apply forall_congr'
    intro owner
    exact (exists_decodeRecords_iff ⟨m, hm⟩ _).symm

/-- A fragment of three of four bytes. -/
def partRecord (id : UByte) : List UByte := [23, 3, 3, 0, 8, id, 0, 0, 0, 4, 1, 2, 3]

/-- Between two fragments of another packet, a query is decoded as it is alone. -/
theorem decodeRecords_by_id_query : ∃ t : QVPNPacketManager,
    decodeRecords defaultLayers (initial .increasing)
      [wholeRecord 5 query.toQTunnelProxy query.data] = .ok ([some query], t) ∧
        t.packets 7 = none := by
  have hmixed : ∃ m', decodeRecords defaultLayers (initial .increasing)
      [partRecord 7, wholeRecord 5 query.toQTunnelProxy query.data, partRecord 7] =
        .ok ([none, some query, none], m') := ⟨_, rfl⟩
  obtain ⟨m', hmixed⟩ := hmixed
  obtain ⟨t, halone, -, hothers⟩ :=
    ((decodeRecords_by_id (initial_settled .increasing) _).1 _ m' hmixed).2 5
  exact ⟨t, halone, hothers 7 (by decide)⟩

section Overfull

/-- More is held of an id than was announced. -/
def QVPNPacketManager.Overfull (m : QVPNPacketManager) (id : UByte) : Prop :=
  ∃ pb, m.packets id = some pb ∧ pb.originalSize.toNat < pb.data.length

/-- A builder that holds more than was announced, and was not full when it came to that. -/
structure PacketBuilder.Outgrown (pb : PacketBuilder) : Prop where
  not_full : pb.isFull = false
  exceeds : pb.originalSize.toNat < pb.data.length

theorem QVPNPacketManager.Overfull.outgrown {m : QVPNPacketManager} (hm : m.Settled) {id : UByte}
    (h : m.Overfull id) : ∃ pb, m.packets id = some pb ∧ pb.Outgrown := by
  obtain ⟨pb, hid, hover⟩ := h
  have hnone := hm.none_full id
  rw [fullAt, hid] at hnone
  exact ⟨pb, hid, hnone, hover⟩

variable {pb : PacketBuilder}

/-- More data makes it no fuller. -/
theorem PacketBuilder.Outgrown.addData (h : pb.Outgrown) (offset : UShort) (body : List UByte) :
    (pb.addData offset body).Outgrown := by
  have hlength := (addData_perm pb offset body).length_eq
  have hover := h.exceeds
  rw [List.length_append] at hlength
  refine ⟨?_, ?_⟩
  · change (pb.isFull || (pb.addData offset body).data.length == pb.originalSize.toNat) = false
    rw [h.not_full, Bool.false_or, beq_eq_false_iff_ne]
    omega
  · rw [addData_originalSize]
    omega

theorem PacketBuilder.Outgrown.takeIn (h : pb.Outgrown) (message : List UByte) :
    ∃ pb', PacketBuilder.takeIn (some pb) message = some pb' ∧ pb'.Outgrown := by
  unfold PacketBuilder.takeIn
  split
  · dsimp only
    split
    · exact ⟨pb, rfl, h⟩
    · exact ⟨_, rfl, h.addData _ _⟩
  · exact ⟨pb, rfl, h⟩

/-- A record does not complete anything in it. -/
theorem PacketBuilder.Outgrown.decodeOne (h : pb.Outgrown) {record : List UByte}
    {packet : Option QTunnelData} {pb' : Option PacketBuilder}
    (hdecode : PacketBuilder.decodeOne layers (some pb) record = .ok (packet, pb')) :
    packet = none ∧ ∃ pb₁, pb' = some pb₁ ∧ pb₁.Outgrown := by
  obtain ⟨message, -, hdecode⟩ := bind_eq_ok_iff.mp hdecode
  obtain ⟨pb₁, htaken, h₁⟩ := h.takeIn message
  have hout : takeOut (some pb₁) = (none, some pb₁) :=
    if_neg (by rw [Option.any_some, h₁.not_full]; decide)
  rw [htaken, hout] at hdecode
  cases Except.ok.inj hdecode
  exact ⟨rfl, pb₁, rfl, h₁⟩

/-- No record ever does. -/
theorem PacketBuilder.Outgrown.run (h : pb.Outgrown) {records : List (List UByte)}
    {packets : List (Option QTunnelData)} {pb' : Option PacketBuilder}
    (hrun : Interleaving.run (PacketBuilder.decodeOne layers) (some pb) records =
      .ok (packets, pb')) :
    (∀ packet ∈ packets, packet = none) ∧ ∃ pb₁, pb' = some pb₁ ∧ pb₁.Outgrown := by
  induction records generalizing pb packets with
  | nil =>
    cases Except.ok.inj hrun
    refine ⟨?_, pb, rfl, h⟩
    intro packet hpacket
    cases hpacket
  | cons record records ih =>
    obtain ⟨packet, t, rest, hstep, hrest, rfl⟩ := run_cons_eq_ok_iff.mp hrun
    obtain ⟨rfl, pb₁, rfl, h₁⟩ := h.decodeOne hstep
    obtain ⟨hnone, hlast⟩ := ih h₁ hrest
    exact ⟨List.forall_mem_cons.mpr ⟨rfl, hnone⟩, hlast⟩

/-- Answers without a packet may be left out. -/
theorem reduceOption_zip_filter {α β : Type} {actions : List α} {answers : List (Option β)}
    (hlength : answers.length = actions.length) (keep : α → Bool)
    (hnone : ∀ p ∈ actions.zip answers, keep p.1 = false → p.2 = none) :
    (((actions.zip answers).filter fun p => keep p.1).map Prod.snd).reduceOption =
      answers.reduceOption := by
  induction actions generalizing answers with
  | nil =>
    rw [List.length_eq_zero_iff.mp hlength]
    rfl
  | cons a actions ih =>
    cases answers with
    | nil => cases hlength
    | cons answer answers =>
      have hlater := ih (Nat.succ.inj hlength) fun p hp hkeep =>
        hnone p (List.mem_cons_of_mem _ hp) hkeep
      rw [List.zip_cons_cons]
      cases hkeep : keep a with
      | true =>
        rw [List.filter_cons_of_pos (by simpa using hkeep), List.map_cons]
        cases answer with
        | none => exact hlater
        | some b => exact congrArg (b :: ·) hlater
      | false =>
        rw [List.filter_cons_of_neg (by simp [hkeep])]
        cases hnone (a, answer) (List.mem_cons_self ..) hkeep
        exact hlater

/-- If more is held of an id than was announced, the id is lost for good. Whatever records are
decoded from then on, in any order: no record of the id completes a packet, more than was announced
is held of it at the end, and what the other records come to is what they come to without it. -/
theorem overfull_ids_are_lost {m m' : QVPNPacketManager} (hm : m.Settled) {id : UByte}
    (hover : m.Overfull id) {records : List (List UByte)} {packets : List (Option QTunnelData)}
    (hdecode : decodeRecords layers m records = .ok (packets, m')) :
    (∀ p ∈ records.zip packets, recordOwner layers p.1 = some id → p.2 = none) ∧ m'.Overfull id ∧
      ∃ others t, decodeRecords layers m
          (records.filter fun record => recordOwner layers record ≠ some id) = .ok (others, t) ∧
        others.reduceOption = packets.reduceOption ∧
        ∀ other, other ≠ id → t.packets other = m'.packets other := by
  have hids := independent_ids layers
  obtain ⟨hm', hrun⟩ := run_of_decodeRecords (s := ⟨m, hm⟩) hdecode
  obtain ⟨pb, hid, houtgrown⟩ := hover.outgrown hm
  have hcomponent := hids.run_component hrun (some id)
  have hstart : builderOf ⟨m, hm⟩ (some id) = some pb := hid
  rw [hstart] at hcomponent
  obtain ⟨hnone, pb₁, hlast, h₁⟩ := houtgrown.run hcomponent
  have hnever : ∀ p ∈ records.zip packets, recordOwner layers p.1 = some id → p.2 = none := by
    intro p hp howner
    apply hnone
    rw [answersOf]
    exact List.mem_map_of_mem (List.mem_filter.mpr ⟨hp, by simpa using howner⟩)
  obtain ⟨t, hwithout, hagree, -⟩ := hids.run_without hrun (some id) (u := ⟨m, hm⟩) fun _ _ => rfl
  have hdecoded : decodeRecords layers m
      (records.filter fun record => recordOwner layers record ≠ some id) =
        .ok (((records.zip packets).filter fun p => recordOwner layers p.1 ≠ some id).map Prod.snd,
          t.1) := by
    rw [← run_decode ⟨m, hm⟩, hwithout]
    rfl
  refine ⟨hnever, ⟨pb₁, hlast, h₁.exceeds⟩, _, t.1, hdecoded, ?_, ?_⟩
  · exact reduceOption_zip_filter (run_length hrun)
      (fun record => decide (recordOwner layers record ≠ some id))
      (fun p hp hkeep => hnever p hp (by simpa using hkeep))
  · intro other hother
    exact hagree (some other) (by simpa using hother)

/-- The fragment arrives twice, and the query that comes with its id later is lost. -/
theorem overfull_ids_are_lost_partTwice : ∃ m m' : QVPNPacketManager,
    decodeRecords defaultLayers (initial .increasing) [partRecord 5, partRecord 5] =
        .ok ([none, none], m) ∧
      decodeRecords defaultLayers m [wholeRecord 5 query.toQTunnelProxy query.data] =
        .ok ([none], m') ∧ m'.Overfull 5 := by
  have hcomputed : (fun r => (r.1, r.2.packets 5, Prod.fst <$> decodeRecords defaultLayers r.2
      [wholeRecord 5 query.toQTunnelProxy query.data])) <$>
        decodeRecords defaultLayers (initial .increasing) [partRecord 5, partRecord 5] =
      .ok ([none, none], some ⟨4, [1, 2, 3, 1, 2, 3], false⟩, .ok [none]) := rfl
  obtain ⟨⟨answers, m⟩, hparts, hr⟩ := map_eq_ok_iff.mp hcomputed
  obtain ⟨rfl, hpair⟩ := Prod.mk.inj hr
  obtain ⟨hheld, hanswer⟩ := Prod.mk.inj hpair
  obtain ⟨⟨packets, m'⟩, hwhole, rfl⟩ := map_eq_ok_iff.mp hanswer
  obtain ⟨hm, -⟩ := run_of_decodeRecords (s := ⟨initial .increasing, initial_settled _⟩) hparts
  have hover : m.Overfull 5 := ⟨_, hheld, by decide⟩
  exact ⟨m, m', hparts, hwhole, (overfull_ids_are_lost hm hover hwhole).2.1⟩

end Overfull

end QVPN
