import QVPN.Properties.TransportChecksum
import QVPN.Structures.TcpSetters

/-!
# The two TCP classes

A copied and a viewed TCP header that start from the same bytes and receive the same calls.
As long as no call touches a size or a reserved bit they hold the same bytes, and their getters
agree. The reserved bits are read differently, shorter options shrink only the view, longer
ones grow only the copy, and a new header replaces the viewed one but is appended to the copied
one; a run agrees throughout exactly when it does none of this.
-/

namespace QVPN

open BigEndian Memory

/-- Both classes return the same from every getter. -/
structure TcpGettersAgree (p : TcpPacketLittleEndian) (v : TcpPacketView) : Prop where
  size : p.getSize = v.getSize
  src_port : Agree p.getTcpSrcPort v.getTcpSrcPort
  dst_port : Agree p.getTcpDstPort v.getTcpDstPort
  seq_number : Agree p.getTcpSeqNumber v.getTcpSeqNumber
  ack_number : Agree p.getTcpAckNumber v.getTcpAckNumber
  header_length : Agree p.getTcpHeaderLength v.getTcpHeaderLength
  reserved : Agree p.getTcpReserved v.getTcpReserved
  flags : Agree p.getTcpFlags v.getTcpFlags
  window_size : Agree p.getTcpWindowSize v.getTcpWindowSize
  checksum : Agree p.getTcpChecksum v.getTcpChecksum
  urgent_pointer : Agree p.getTcpUrgentPointer v.getTcpUrgentPointer
  options : Agree p.getTcpOptions v.getTcpOptions
  transport_length : Agree p.getTransportLength v.getTransportLength
  to_bytes : Agree (.ok p.toBytes) v.toTransportBytes

/-- Where the getters agree, the copy is as long as the view says. -/
theorem TcpGettersAgree.length_eq {p : TcpPacketLittleEndian} {v : TcpPacketView}
    (h : TcpGettersAgree p v) : (p.header.length : ℤ) = 20 + v.tcpOptionsSize := by
  obtain ⟨bytes, hcopy, hview⟩ := h.to_bytes
  cases Except.ok.inj hcopy
  have hcount := slice_length hview
  rwa [Int.sub_zero] at hcount

/-- The getters agree before every call of a run and behind the last one. -/
def AgreeAlong (p : TcpPacketLittleEndian) (v : TcpPacketView) : List TcpCall → Prop
  | [] => TcpGettersAgree p v
  | c :: calls => TcpGettersAgree p v ∧
      ∃ p' v', p.call c = .ok p' ∧ v.call c = .ok v' ∧ AgreeAlong p' v' calls

/-- A call on which the classes do not part, over a header of `size` bytes. -/
def TcpCall.Suits (size : ℕ) : TcpCall → Prop
  | .flags f => f.getNs = 0
  | .options new => new.length = size - 20
  | .data _ => False
  | _ => True

/-- The four bits below the data offset. -/
def lowBits (header : List UByte) : UByte := header.getD 12 0 &&& 0xF

/-- Both classes hold the same header of `size` bytes. -/
structure SameHeader (size : ℕ) (p : TcpPacketLittleEndian) (v : TcpPacketView) : Prop where
  size_ge : 20 ≤ size
  size_le : size ≤ 60
  length_eq : p.header.length = size
  in_memory : ∃ behind, v.tcpHeader = p.header ++ behind
  options_size : v.tcpOptionsSize = size - 20

/-- Three bits and four bits are the same only if there is none. -/
theorem reserved_eq_iff (b : UByte) : b >>> 1 &&& 0x7 = b &&& 0xF ↔ b &&& 0xF = 0 := by
  revert b
  exact forall_byte (by decide +kernel)

/-- A data offset has no low bits. -/
theorem shifted_low (offset : UByte) : offset <<< 4 &&& 0xF = 0 := by
  revert offset
  exact forall_byte (by decide +kernel)

/-- The low bits are their own low bits. -/
theorem low_low (b : UByte) : b &&& 0x0F &&& 0xF = b &&& 0xF := by
  revert b
  exact forall_byte (by decide +kernel)

/-- Setting flags adds the NS bit to the low bits. -/
theorem TcpHeader.setFlags_low {header header' : List UByte} {flags : TcpFlagsObject}
    (h : setFlags header flags = .ok header') :
    lowBits header' = lowBits header ||| flags.getNs &&& 0xF := by
  obtain ⟨b, hb, h⟩ := bind_eq_ok_iff.mp h
  obtain ⟨edited, hfirst, h⟩ := bind_eq_ok_iff.mp h
  rw [lowBits, writeAt_getD h, if_neg (by decide), writeAt_getD hfirst, if_pos rfl, or_and, lowBits,
    getD_of_readAt hb]

/-- Setting the data offset keeps the low bits. -/
theorem TcpHeader.setOffset_low {header header' : List UByte} {offset : UByte}
    (h : setOffset header offset = .ok header') : lowBits header' = lowBits header := by
  obtain ⟨b, hb, h⟩ := bind_eq_ok_iff.mp h
  rw [lowBits, writeAt_getD h, if_pos rfl, or_and, shifted_low, low_low, UInt8.zero_or, lowBits,
    getD_of_readAt hb]

theorem TcpHeader.editsFront_setFlags (flags : TcpFlagsObject) :
    EditsFront 20 (setFlags · flags) :=
  EditsFront.readAt (by decide) fun b =>
    (editsFront_writeAt (by decide) (b ||| flags.getNs)).andThen
      (editsFront_writeAt (by decide) flags.getWithoutNs)

theorem TcpHeader.editsFront_setOffset (offset : UByte) : EditsFront 20 (setOffset · offset) :=
  EditsFront.readAt (by decide) fun b =>
    editsFront_writeAt (by decide) (offset <<< 4 ||| (b &&& 0x0F))

theorem TcpFlagsObject.getNs_cases (f : TcpFlagsObject) : f.getNs = 0 ∨ f.getNs = 1 := by
  have hbyte : f.getNs = f.getNs &&& 0x1 := by
    rw [getNs, UInt16.toUInt8_and]
    rw [UInt8.and_assoc]
    rfl
  rw [hbyte]
  exact lowBit_cases _

namespace SameHeader

variable {size : ℕ} {p : TcpPacketLittleEndian} {v : TcpPacketView} (h : SameHeader size p v)
include h

/-- The bytes of the view are those of the copy. -/
theorem toTransportBytes : v.toTransportBytes = .ok p.toBytes := by
  obtain ⟨behind, hmem⟩ := h.in_memory
  have hlength := h.length_eq
  rw [TcpPacketView.toTransportBytes, hmem, h.options_size]
  exact slice_prefix _ _ _ (by rw [hlength]; omega)

/-- Only the reserved bits can make the getters disagree. -/
theorem gettersAgree_iff : TcpGettersAgree p v ↔ lowBits p.header = 0 := by
  obtain ⟨behind, hmem⟩ := h.in_memory
  have hlength := h.length_eq
  have hge := h.size_ge
  have hle := h.size_le
  have hread {i : ℕ} (hi : i < 20) : Agree (readAt p.header i) (readAt v.tcpHeader i) := by
    rw [hmem]
    exact agree_readAt (by omega) behind
  have hword {i : ℕ} (hi : i + 1 < 20) : Agree (read16 p.header i) (read16 v.tcpHeader i) := by
    rw [hmem]
    exact agree_read16 (by omega) behind
  have hdouble {i : ℕ} (hi : i + 3 < 20) : Agree (read32 p.header i) (read32 v.tcpHeader i) := by
    rw [hmem]
    exact agree_read32 (by omega) behind
  have hobject : p.getTcpReserved = .ok (p.header.getD 12 0 >>> 1 &&& 0x7) := by
    rw [TcpPacketLittleEndian.getTcpReserved, readAt_getD (by omega) 0]
    rfl
  have hview : v.getTcpReserved = .ok (lowBits p.header) := by
    rw [TcpPacketView.getTcpReserved, hmem, readAt_append_getD (by omega) 0]
    rfl
  constructor
  · intro hagree
    exact (reserved_eq_iff _).mp (hagree.reserved.values hobject hview)
  · intro hlow
    exact {
      size := by
        rw [TcpPacketLittleEndian.getSize, TcpPacketView.getSize, h.options_size, hlength]
        refine (ofInt_eq_ofNat ?_).symm
        omega
      src_port := hword (by decide)
      dst_port := hword (by decide)
      seq_number := hdouble (by decide)
      ack_number := hdouble (by decide)
      header_length := (hread (by decide)).map _
      reserved := ⟨_, hobject, hview.trans (congrArg _ ((reserved_eq_iff _).mpr hlow).symm)⟩
      flags := (hread (by decide)).bind fun _ => (hread (by decide)).map _
      window_size := hword (by decide)
      checksum := hword (by decide)
      urgent_pointer := hword (by decide)
      options := by
        rw [TcpPacketLittleEndian.getTcpOptions, TcpPacketView.getTcpOptions, hmem, h.options_size,
          hlength, show (20 : ℤ) + ((size : ℤ) - 20) = size by omega]
        exact agree_slice (by decide) (by omega) (by omega) behind
      transport_length := by
        rw [TcpPacketView.getTransportLength, TcpPacketView.getTcpHeaderLength, bind_assoc]
        exact (hread (by decide)).map _
      to_bytes := ⟨_, rfl, h.toTransportBytes⟩ }

/-- An edit of the fixed header leaves the classes with the same header. -/
theorem edit {f : List UByte → Except Fault (List UByte)} (hf : EditsFront 20 f) :
    ∃ p' v', (f p.header >>= fun header => Except.ok (⟨header⟩ : TcpPacketLittleEndian)) = .ok p' ∧
      (f v.tcpHeader >>= fun tcpHeader => Except.ok { v with tcpHeader }) = .ok v' ∧
        SameHeader size p' v' ∧ f p.header = .ok p'.header := by
  obtain ⟨behind, hmem⟩ := h.in_memory
  obtain ⟨header, hedit, hbehind, hlength⟩ := hf p.header behind (by rw [h.length_eq]; exact h.size_ge)
  refine ⟨⟨header⟩, { v with tcpHeader := header ++ behind }, by rw [hedit]; rfl,
    by rw [hmem, hbehind]; rfl, ?_, hedit⟩
  exact ⟨h.size_ge, h.size_le, hlength.trans h.length_eq, ⟨behind, rfl⟩, h.options_size⟩

/-- Options of the same size replace the old ones in both classes. -/
theorem options {new : List UByte} (hnew : new.length = size - 20) :
    ∃ p' v', p.setTcpOptions new = .ok p' ∧ v.setTcpOptions new = .ok v' ∧ SameHeader size p' v' ∧
      lowBits p'.header = lowBits p.header := by
  obtain ⟨behind, hmem⟩ := h.in_memory
  have hlength := h.length_eq
  have hge := h.size_ge
  have hold : p.getTcpOptions = .ok (p.header.drop 20) := by
    have hcut := slice_drop (show 20 ≤ p.header.length by omega) [] (show (20 : ℤ) = (20 : ℕ) from rfl) rfl
    rwa [List.append_nil] at hcut
  have hmin : min new.length (p.header.drop 20).length = new.length := by
    rw [List.length_drop]
    omega
  have hobject : overwrite p.header 20 new = .ok (p.header.take 20 ++ new) := by
    rw [overwrite, if_pos (by omega), List.drop_of_length_le (by omega), List.append_nil]
  have hview : overwrite (p.header ++ behind) 20 new = .ok (p.header.take 20 ++ new ++ behind) := by
    have hlen : (p.header ++ behind).length = p.header.length + behind.length := List.length_append
    rw [overwrite, if_pos (by omega), List.take_append_of_le_length (by omega),
      List.drop_left' (by omega)]
  have hsize : (p.header.take 20 ++ new).length = size := by
    rw [List.length_append, List.length_take_of_le (by omega)]
    omega
  have hlow : lowBits (p.header.take 20 ++ new) = lowBits p.header := by
    rw [lowBits, lowBits, overwrite_getD hobject (.inl (by decide))]
  refine ⟨⟨p.header.take 20 ++ new⟩, ⟨p.header.take 20 ++ new ++ behind, new.length⟩, ?_, ?_,
    ⟨hge, h.size_le, hsize, ⟨behind, rfl⟩, ?_⟩, hlow⟩
  · rw [TcpPacketLittleEndian.setTcpOptions, hold, ok_bind, hmin]
    dsimp only
    rw [List.take_length, hobject, ok_bind, List.drop_length, List.append_nil]
    rfl
  · rw [TcpPacketView.setTcpOptions, h.options_size, if_neg (by omega), hmem, hview]
    rfl
  · dsimp only
    omega

/-- Other options leave one class with more bytes than the other. -/
theorem options_ne {new : List UByte} (hnew : new.length ≠ size - 20) {p' : TcpPacketLittleEndian}
    {v' : TcpPacketView} (hp : p.setTcpOptions new = .ok p') (hv : v.setTcpOptions new = .ok v') :
    ¬ TcpGettersAgree p' v' := by
  intro hagree
  have hlength := h.length_eq
  have hge := h.size_ge
  have hcount := hagree.length_eq
  -- the copy keeps its length, or has the new options behind the fixed header
  obtain ⟨old, hold, hp⟩ := bind_eq_ok_iff.mp hp
  obtain ⟨header, hover, hp⟩ := bind_eq_ok_iff.mp hp
  cases Except.ok.inj hp
  have holdLength := slice_length hold
  have hover := overwrite_length hover
  simp only [List.length_append, List.length_drop] at hcount
  -- the view has the new options, or what it had
  unfold TcpPacketView.setTcpOptions at hv
  rw [h.options_size] at hv
  split at hv
  · cases Except.ok.inj hv
    rw [h.options_size] at hcount
    omega
  · obtain ⟨_, -, hv⟩ := bind_eq_ok_iff.mp hv
    cases Except.ok.inj hv
    dsimp only at hcount
    omega

/-- Behind another header the copy has more bytes than the view. -/
theorem data_ne {mem : List UByte} {p' : TcpPacketLittleEndian} {v' : TcpPacketView}
    (hp : p.setData mem = .ok p') (hv : v.setData mem = .ok v') : ¬ TcpGettersAgree p' v' := by
  intro hagree
  have hlength := h.length_eq
  have hge := h.size_ge
  have hcount := hagree.length_eq
  obtain ⟨fixed, hfixed, hp⟩ := bind_eq_ok_iff.mp hp
  obtain ⟨b, hb, hp⟩ := bind_eq_ok_iff.mp hp
  obtain ⟨options, hoptions, hp⟩ := bind_eq_ok_iff.mp hp
  cases Except.ok.inj hp
  obtain ⟨c, hc, hv⟩ := bind_eq_ok_iff.mp hv
  cases Except.ok.inj hv
  -- equal data offsets, so as many new options in both
  have hoffset : b >>> 4 = c >>> 4 := by
    refine hagree.header_length.values ?_ ?_
    · rw [TcpPacketLittleEndian.getTcpHeaderLength, readAt_of_prefix hb]
      rfl
    · rw [TcpPacketView.getTcpHeaderLength, hc]
      rfl
  have hfixedLength := slice_length hfixed
  have hoptionsLength := slice_length hoptions
  simp only [List.length_append] at hcount
  rw [hoffset] at hoptionsLength
  omega

/-- A call on which the classes do not part keeps the same header and its low bits. -/
theorem call {c : TcpCall} (hc : c.Suits size) (hlow : lowBits p.header = 0) :
    ∃ p' v', p.call c = .ok p' ∧ v.call c = .ok v' ∧ SameHeader size p' v' ∧
      lowBits p'.header = 0 := by
  have hedit {f : List UByte → Except Fault (List UByte)} (hf : EditsFront 20 f)
      (hkeep : ∀ header, f p.header = .ok header → lowBits header = lowBits p.header) :
      ∃ p' v', (f p.header >>= fun header => Except.ok (⟨header⟩ : TcpPacketLittleEndian)) = .ok p' ∧
        (f v.tcpHeader >>= fun tcpHeader => Except.ok { v with tcpHeader }) = .ok v' ∧
          SameHeader size p' v' ∧ lowBits p'.header = 0 := by
    obtain ⟨p', v', hp, hv, hsame, hheader⟩ := h.edit hf
    exact ⟨p', v', hp, hv, hsame, (hkeep _ hheader).trans hlow⟩
  have hword {i : ℕ} (value : UShort) (hi : i + 1 < 12 ∨ 12 < i) (header : List UByte)
      (hwrite : write16 p.header i value = .ok header) : lowBits header = lowBits p.header := by
    rw [lowBits, lowBits, write16_getD hwrite (by omega)]
  have hdouble {i : ℕ} (value : UInt) (hi : i + 3 < 12) (header : List UByte)
      (hwrite : write32 p.header i value = .ok header) : lowBits header = lowBits p.header := by
    rw [lowBits, lowBits, write32_getD hwrite hi]
  cases c with
  | srcPort port => exact hedit (editsFront_write16 (by decide) port) (hword port (by decide))
  | dstPort port => exact hedit (editsFront_write16 (by decide) port) (hword port (by decide))
  | seqNumber number =>
    exact hedit (editsFront_write32 (by decide) number) (hdouble number (by decide))
  | ackNumber number =>
    exact hedit (editsFront_write32 (by decide) number) (hdouble number (by decide))
  | flags f =>
    refine hedit (TcpHeader.editsFront_setFlags f) fun header hset => ?_
    rw [TcpHeader.setFlags_low hset, show f.getNs = 0 from hc]
    exact UInt8.or_zero
  | offset offset =>
    exact hedit (TcpHeader.editsFront_setOffset offset) fun header hset => TcpHeader.setOffset_low hset
  | window window => exact hedit (editsFront_write16 (by decide) window) (hword window (by decide))
  | urgent urgent => exact hedit (editsFront_write16 (by decide) urgent) (hword urgent (by decide))
  | options new =>
    obtain ⟨p', v', hp, hv, hsame, hkeep⟩ := h.options hc
    exact ⟨p', v', hp, hv, hsame, hkeep.trans hlow⟩
  | data mem => exact hc.elim

/-- Only a call that suits leaves getters that agree. -/
theorem suits_of_agree {c : TcpCall} {p' : TcpPacketLittleEndian} {v' : TcpPacketView}
    (hlow : lowBits p.header = 0) (hp : p.call c = .ok p') (hv : v.call c = .ok v')
    (hagree : TcpGettersAgree p' v') : c.Suits size := by
  cases c with
  | flags f =>
    obtain ⟨p'', v'', hp', hv', hsame, hset⟩ := h.edit (TcpHeader.editsFront_setFlags f)
    cases Except.ok.inj (hp'.symm.trans hp)
    cases Except.ok.inj (hv'.symm.trans hv)
    have hzero := hsame.gettersAgree_iff.mp hagree
    rw [TcpHeader.setFlags_low hset, hlow] at hzero
    rcases f.getNs_cases with hns | hns
    · exact hns
    · rw [hns] at hzero
      exact absurd hzero (by decide)
  | options new =>
    by_contra hnew
    exact h.options_ne hnew hp hv hagree
  | data mem => exact h.data_ne hp hv hagree
  | _ => exact trivial

/-- A run agrees throughout exactly when it starts without reserved bits and all calls suit. -/
theorem agreeAlong_iff (calls : List TcpCall) :
    AgreeAlong p v calls ↔ lowBits p.header = 0 ∧ ∀ c ∈ calls, c.Suits size := by
  induction calls generalizing p v with
  | nil =>
    rw [AgreeAlong, h.gettersAgree_iff]
    simp
  | cons c calls ih =>
    rw [AgreeAlong, h.gettersAgree_iff, List.forall_mem_cons]
    constructor
    · rintro ⟨hlow, p', v', hp, hv, hrest⟩
      have hhead : TcpGettersAgree p' v' := by
        cases calls with
        | nil => exact hrest
        | cons _ _ => exact hrest.1
      have hc := h.suits_of_agree hlow hp hv hhead
      obtain ⟨p'', v'', hp', hv', hsame, -⟩ := h.call hc hlow
      cases Except.ok.inj (hp'.symm.trans hp)
      cases Except.ok.inj (hv'.symm.trans hv)
      exact ⟨hlow, hc, ((ih hsame).mp hrest).2⟩
    · rintro ⟨hlow, hc, hcalls⟩
      obtain ⟨p', v', hp, hv, hsame, hlow'⟩ := h.call hc hlow
      exact ⟨hlow, p', v', hp, hv, (ih hsame).mpr ⟨hlow', hcalls⟩⟩

end SameHeader

/-- Made from the same bytes, both classes hold the same header. -/
theorem sameHeader_parsed {header : List UByte} (hheader : IsTcpLayout header)
    (behind : List UByte) :
    SameHeader header.length ⟨header⟩ ⟨header ++ behind, header.length - 20⟩ := by
  have hge := hheader.offset_ge
  have hlength := hheader.length_eq
  have hle : declaredOffset header ≤ 15 := highNibble_le _
  exact ⟨by omega, by omega, rfl, ⟨behind, rfl⟩, rfl⟩

/-- The classes agree through a run of calls exactly when the header has no bit below its data
offset and every call suits. -/
theorem tcpForms_agreeAlong_iff {header : List UByte} (hheader : IsTcpLayout header)
    (behind : List UByte) (calls : List TcpCall) :
    (∃ p v, TcpPacketLittleEndian.parsePacket (header ++ behind) = .ok p ∧
      TcpPacketView.parsePacket (header ++ behind) = .ok v ∧ AgreeAlong p v calls) ↔
        lowBits header = 0 ∧ ∀ c ∈ calls, c.Suits header.length := by
  rw [← (sameHeader_parsed hheader behind).agreeAlong_iff calls]
  constructor
  · rintro ⟨p, v, hp, hv, hrun⟩
    cases Except.ok.inj ((hheader.parsePacket_object behind).symm.trans hp)
    cases Except.ok.inj ((hheader.parsePacket_view behind).symm.trans hv)
    exact hrun
  · intro hrun
    exact ⟨_, _, hheader.parsePacket_object behind, hheader.parsePacket_view behind, hrun⟩

/-- Two of the four option bytes are replaced: the copy still has 24 bytes, the view 22. -/
theorem optionHeader_options_disagree : IsTcpLayout optionHeader ∧ lowBits optionHeader = 0 ∧
    ((TcpPacketLittleEndian.parsePacket optionHeader >>= (·.call (.options [1, 1]))).map
      (·.getSize) = .ok 24) ∧
    ((TcpPacketView.parsePacket optionHeader >>= (·.call (.options [1, 1]))).map
      (·.getSize) = .ok 22) ∧
    ¬ ∃ p v, TcpPacketLittleEndian.parsePacket (optionHeader ++ []) = .ok p ∧
      TcpPacketView.parsePacket (optionHeader ++ []) = .ok v ∧ AgreeAlong p v [.options [1, 1]] := by
  have hheader : IsTcpLayout optionHeader := ⟨by decide, by decide⟩
  refine ⟨hheader, by decide, by decide, by decide, ?_⟩
  rintro ⟨p, v, hp, hv, hrun⟩
  cases Except.ok.inj ((hheader.parsePacket_object []).symm.trans hp)
  cases Except.ok.inj ((hheader.parsePacket_view []).symm.trans hv)
  have hcalls := ((sameHeader_parsed hheader []).agreeAlong_iff _).mp hrun
  exact absurd (hcalls.2 _ (List.mem_singleton_self _))
    (show ¬ [(1 : UByte), 1].length = optionHeader.length - 20 by decide)

/-- A run over a header with an option, with memory behind it. -/
theorem tcpForms_agreeAlong_iff_option :
    (∃ p v, TcpPacketLittleEndian.parsePacket (optionHeader ++ [0, 0]) = .ok p ∧
      TcpPacketView.parsePacket (optionHeader ++ [0, 0]) = .ok v ∧
        AgreeAlong p v [.srcPort 80, .options [1, 1, 1, 1]]) ↔
      lowBits optionHeader = 0 ∧ ∀ c ∈ [TcpCall.srcPort 80, .options [1, 1, 1, 1]],
        c.Suits optionHeader.length :=
  tcpForms_agreeAlong_iff ⟨by decide, by decide⟩ _ _

end QVPN
