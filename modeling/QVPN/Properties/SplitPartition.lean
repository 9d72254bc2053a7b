import QVPN.Driver.Codec
import Mathlib.Tactic.Ring

/-!
# Which payloads are partitioned

The split loop adds the number of its iteration times the part size to a pointer that it has
advanced before, so its ranges begin at one part, three parts, six parts and so on, and it makes
as many of them as whole parts fit into the payload. In place, the ranges are stored by their
lengths alone and lie one behind the other; a copy is made of the bytes at the pointers. Both are a
partition of the payload when it is not split, and when it is exactly one or two parts long.
-/

namespace QVPN

open Memory Fragments QVPNPacketManager

/-- Both ways to split a payload give the same parts, which lie one behind the other and make up
the payload, and the builder headers tell where each part is and how long the payload is. -/
structure IsPartition (m : QVPNPacketManager) (payload : List UByte) (parts : List (List UByte)) :
    Prop where
  view : ∃ view m', m.splitPacketView payload = .ok (view, m') ∧ view.size = parts.length ∧
    ∀ (i : ℕ) (part : List UByte), parts[i]? = some part →
      ∃ pb, view.getRawWithPbData i = .ok (pb, start parts i, start parts i + part.length) ∧
        slice payload (start parts i) (start parts i + part.length) = .ok part ∧
        pb.offset.toNat = start parts i ∧ pb.originalSize.toNat = payload.length
  copy : ∃ copy m', m.splitPacket payload = .ok (copy, m') ∧ copy.records = .ok parts
  nonempty : payload ≠ [] → ∀ part ∈ parts, part ≠ []
  flatten : parts.flatten = payload

section Ranges

/-- Ranges that lie one behind the other are added to a view by their lengths. The places they are
given begin where the view's size is, and wrap. -/
theorem foldl_addData_wrapped (id : UByte) (base : ℤ) (pos size : ℕ) (separators : List (ℕ × ℤ))
    (parts : List (List UByte)) :
    (spans pos parts).foldl (fun s r => SplittedPacketView.addData s r.1 r.2)
        ⟨id, some base, UInt16.ofNat size, separators⟩ =
      ⟨id, some base, UInt16.ofNat (size + parts.flatten.length), separators ++
        (spans size parts).map fun r => (r.1 % 65536, ((r.1 % 65536 + (r.2 - r.1) : ℕ) : ℤ))⟩ := by
  induction parts generalizing pos size separators with
  | nil => simp [spans]
  | cons part parts ih =>
    have hsize : UInt16.ofNat size + UInt16.ofInt (((pos + part.length : ℕ) : ℤ) - pos) =
        UInt16.ofNat (size + part.length) := by
      rw [← UInt16.toNat_inj, UInt16.toNat_add, BigEndian.toNat_ofInt, UInt16.toNat_ofNat',
        UInt16.toNat_ofNat']
      omega
    have hend : ((size % 65536 : ℕ) : ℤ) + (((pos + part.length : ℕ) : ℤ) - pos) =
        ((size % 65536 + (size + part.length - size) : ℕ) : ℤ) := by
      omega
    rw [spans, List.foldl_cons, SplittedPacketView.addData]
    dsimp only
    rw [hsize, Option.getD_some, UInt16.toNat_ofNat', ih]
    change SplittedPacketView.mk _ _ _ ((separators ++ [(size % 65536,
      ((size % 65536 : ℕ) : ℤ) + (((pos + part.length : ℕ) : ℤ) - pos))]) ++ _) = _
    rw [hend]
    simp only [spans, List.map_cons, List.flatten_cons, List.length_append, List.append_assoc,
      List.singleton_append, Nat.add_assoc]

/-- Ranges whose ends fit the size are added to a view where they are. -/
theorem foldl_addData_view (id : UByte) (pos : ℕ) (separators : List (ℕ × ℤ))
    (parts : List (List UByte)) (h : pos + parts.flatten.length ≤ 65535) :
    (spans pos parts).foldl (fun s r => SplittedPacketView.addData s r.1 r.2)
        ⟨id, some 0, UInt16.ofNat pos, separators⟩ =
      ⟨id, some 0, UInt16.ofNat (pos + parts.flatten.length),
        separators ++ (spans pos parts).map fun r => (r.1, (r.2 : ℤ))⟩ := by
  have hplaces : (spans pos parts).map (fun r => (r.1 % 65536,
      ((r.1 % 65536 + (r.2 - r.1) : ℕ) : ℤ))) = (spans pos parts).map fun r => (r.1, (r.2 : ℤ)) := by
    apply List.map_congr_left
    intro r hr
    have hle := spans_le hr
    rw [Nat.mod_eq_of_lt (by omega), Nat.add_sub_cancel' hle.1]
  rw [foldl_addData_wrapped, hplaces]

variable {m : QVPNPacketManager} {payload : List UByte} {parts : List (List UByte)}

/-- The view of ranges that lie one behind the other. -/
theorem splitPacketView_spans
    (hranges : m.ranges payload.length = .ok ((spans 0 parts).map fun r => ((r.1 : ℤ), (r.2 : ℤ))))
    (hflat : parts.flatten = payload) (hsize : payload.length ≤ 65535) :
    m.splitPacketView payload = .ok (⟨m.lastPacketId, if parts = [] then none else some 0,
      UInt16.ofNat payload.length, (spans 0 parts).map fun r => (r.1, (r.2 : ℤ))⟩,
      m.nextPacketId) := by
  rw [← hflat] at hsize
  rw [splitPacketView, hranges, ok_bind, List.foldl_map, ← hflat]
  cases parts with
  | nil => rfl
  | cons part parts =>
    -- the first range fixes the start, which is then kept
    have hfold := foldl_addData_view m.lastPacketId 0 [] (part :: parts) (by omega)
    rw [Nat.zero_add] at hfold
    rw [if_neg (List.cons_ne_nil _ _)]
    exact congrArg (fun view => Except.ok (view, m.nextPacketId)) hfold

/-- Ranges that lie one behind the other and cover the payload partition it. -/
theorem IsPartition.of_ranges
    (hranges : m.ranges payload.length = .ok ((spans 0 parts).map fun r => ((r.1 : ℤ), (r.2 : ℤ))))
    (hflat : parts.flatten = payload) (hsize : payload.length ≤ 65535)
    (hnonempty : payload ≠ [] → ∀ part ∈ parts, part ≠ []) : IsPartition m payload parts := by
  refine ⟨?_, ?_, hnonempty, hflat⟩
  · refine ⟨_, _, splitPacketView_spans hranges hflat hsize, ?_, ?_⟩
    · rw [SplittedPacketView.size, List.length_map, spans_length]
    · intro i part hpart
      have hslice := slice_start hpart
      have hseparator : ((spans 0 parts).map fun r => (r.1, (r.2 : ℤ)))[i]? =
          some (start parts i, ((start parts i + part.length : ℕ) : ℤ)) := by
        rw [List.getElem?_map, spans_getElem?, hpart]
        simp
      have hne : parts ≠ [] := by
        rintro rfl
        cases hpart
      have hstart : start parts i ≤ payload.length := by
        obtain ⟨-, -, hle, -⟩ := slice_eq_ok_iff.mp hslice
        rw [hflat] at hle
        omega
      refine ⟨⟨m.lastPacketId, UInt16.ofNat (start parts i), UInt16.ofNat payload.length⟩, ?_, ?_,
        ?_, ?_⟩
      · rw [SplittedPacketView.getRawWithPbData, readAt_eq_ok_iff.mpr hseparator, if_neg hne]
        simp
      · rw [hflat] at hslice
        exact hslice
      · rw [UInt16.toNat_ofNat', Nat.mod_eq_of_lt (by omega)]
      · rw [UInt16.toNat_ofNat', Nat.mod_eq_of_lt (by omega)]
  · have hslices : ((spans 0 parts).map fun r => ((r.1 : ℤ), (r.2 : ℤ))).mapM
        (fun r => slice payload r.1 r.2) = .ok parts := by
      rw [List.mapM_map, ← hflat]
      exact mapM_slice_spans [] parts
    refine ⟨_, m.nextPacketId, ?_, records_foldl m.lastPacketId (by rw [hflat]; exact hsize)⟩
    rw [splitPacket, hranges, ok_bind, hslices]
    rfl

end Ranges

section Loop

variable {payload : List UByte} {parts : List (List UByte)}

/-- The loop makes as many ranges as it is told. -/
theorem splitRanges_count (stop split : ℤ) (count i : ℕ) (startSplit endSplit : ℤ) :
    (splitRanges stop split count i startSplit endSplit).length = count := by
  induction count generalizing i startSplit endSplit with
  | zero => rfl
  | succ count ih => rw [splitRanges, List.length_cons, ih]

/-- Parts of one length. -/
theorem flatten_length_of_eq {parts : List (List UByte)} {n : ℕ}
    (h : ∀ part ∈ parts, part.length = n) : parts.flatten.length = parts.length * n := by
  induction parts with
  | nil => simp
  | cons part parts ih =>
    rw [List.flatten_cons, List.length_append, h part List.mem_cons_self,
      ih (fun other hother => h other (List.mem_cons_of_mem part hother)), List.length_cons,
      Nat.succ_mul, Nat.add_comm]

/-- As long as no range is clamped to the end of the payload, every range that is copied is one
part long. -/
theorem splitRanges_length {split : ℤ} {count i : ℕ} {startSplit endSplit : ℤ}
    (hend : endSplit ≤ payload.length)
    (h : (splitRanges payload.length split count i startSplit endSplit).mapM
      (fun r => slice payload r.1 r.2) = .ok parts) : ∀ part ∈ parts, (part.length : ℤ) = split := by
  induction count generalizing i startSplit endSplit parts with
  | zero =>
    cases Except.ok.inj h
    intro part hpart
    cases hpart
  | succ count ih =>
    rw [splitRanges, if_neg (by omega), List.mapM_cons] at h
    obtain ⟨part, hpart, h⟩ := bind_eq_ok_iff.mp h
    obtain ⟨rest, hrest, h⟩ := bind_eq_ok_iff.mp h
    cases Except.ok.inj h
    obtain ⟨-, -, hle, -⟩ := slice_eq_ok_iff.mp hpart
    have hlength := slice_length hpart
    intro other hother
    cases hother with
    | head => omega
    | tail _ hother => exact ih hle hrest other hother

/-- From the third range on, the copy of a range needs more bytes than the parts up to it have. -/
theorem splitRanges_reach {split : ℤ} (hsplit : 0 ≤ split) {count i : ℕ} {startSplit endSplit : ℤ}
    (hcount : 0 < count) (hstart : split ≤ startSplit) (hend : endSplit ≤ payload.length)
    (h : (splitRanges payload.length split count i startSplit endSplit).mapM
      (fun r => slice payload r.1 r.2) = .ok parts) :
    ((i + count + 1 : ℕ) : ℤ) * split ≤ payload.length := by
  induction count generalizing i startSplit endSplit parts with
  | zero => omega
  | succ count ih =>
    rw [splitRanges, if_neg (by omega), List.mapM_cons] at h
    obtain ⟨part, hpart, h⟩ := bind_eq_ok_iff.mp h
    obtain ⟨rest, hrest, -⟩ := bind_eq_ok_iff.mp h
    obtain ⟨-, -, hle, -⟩ := slice_eq_ok_iff.mp hpart
    have hadvance : 0 ≤ (i : ℤ) * split := Int.mul_nonneg (Int.natCast_nonneg i) hsplit
    by_cases hlast : count = 0
    · have hmul : ((i + (count + 1) + 1 : ℕ) : ℤ) * split = i * split + split + split := by
        rw [hlast]
        push_cast
        ring
      omega
    · have hnext := ih (by omega) (by omega) hle hrest
      rwa [show i + 1 + count + 1 = i + (count + 1) + 1 by omega] at hnext

end Loop

/-- The payloads that the configuration of a manager partitions. -/
def PartitionedSize (m : QVPNPacketManager) (size : ℕ) : Prop :=
  size < m.dataMaxSize.toNat ∨ size = 0 ∨ size = m.dataSplitSize.toNat ∨
    size = 2 * m.dataSplitSize.toNat

section Sizes

variable {m : QVPNPacketManager} {payload : List UByte}

/-- A payload that reaches the maximum goes through the loop. -/
theorem ranges_split (hsplit : m.dataSplitSize ≠ 0) {size : ℕ}
    (hmax : ¬ size < m.dataMaxSize.toNat) : m.ranges size =
      .ok (splitRanges size m.dataSplitSize.toNat (size / m.dataSplitSize.toNat % 256) 0 0
        m.dataSplitSize.toNat) := by
  have hne : m.dataSplitSize.toNat ≠ 0 := fun h => hsplit (UInt16.toNat_inj.mp h)
  have hcount : (UInt8.ofNat (size / m.dataSplitSize.toNat)).toNat =
      size / m.dataSplitSize.toNat % 256 := by simp
  rw [ranges, if_pos (by omega), if_neg hne]
  dsimp only
  rw [hcount]

/-- A payload of one of these sizes is partitioned. -/
theorem exists_isPartition (hsize : payload.length ≤ 65535) (hsplit : m.dataSplitSize ≠ 0)
    (h : PartitionedSize m payload.length) : ∃ parts, IsPartition m payload parts := by
  have hpos : 0 < m.dataSplitSize.toNat :=
    Nat.pos_of_ne_zero fun h => hsplit (UInt16.toNat_inj.mp h)
  have hself : payload ≠ [] → ∀ part ∈ [payload], part ≠ [] := by
    intro hne part hpart
    rw [List.mem_singleton.mp hpart]
    exact hne
  by_cases hmax : payload.length < m.dataMaxSize.toNat
  · refine ⟨[payload], IsPartition.of_ranges ?_ (List.flatten_singleton) hsize hself⟩
    rw [ranges, if_neg (by omega)]
    simp [spans]
  · have hloop := ranges_split hsplit hmax
    obtain hzero | hone | htwo := h.resolve_left hmax
    · have hnil : payload = [] := List.length_eq_zero_iff.mp hzero
      refine ⟨[], IsPartition.of_ranges ?_ hnil.symm hsize fun _ => List.forall_mem_nil _⟩
      rw [hloop, hzero, Nat.zero_div]
      rfl
    · refine ⟨[payload], IsPartition.of_ranges ?_ (List.flatten_singleton) hsize hself⟩
      rw [hloop, ← hone, Nat.div_self (by omega)]
      simp [splitRanges, spans]
    · have htake : (payload.take m.dataSplitSize.toNat).length = m.dataSplitSize.toNat := by
        rw [List.length_take]
        omega
      have hdrop : (payload.drop m.dataSplitSize.toNat).length = m.dataSplitSize.toNat := by
        rw [List.length_drop]
        omega
      have hdiv : payload.length / m.dataSplitSize.toNat = 2 := by
        rw [htwo, Nat.mul_div_cancel _ hpos]
      refine ⟨[payload.take m.dataSplitSize.toNat, payload.drop m.dataSplitSize.toNat],
        IsPartition.of_ranges ?_ (by simp) hsize ?_⟩
      · rw [hloop, hdiv, htwo]
        simp only [splitRanges, spans, htake, hdrop]
        simp
        omega
      · intro _ part hpart
        apply List.length_pos_iff.mp
        simp only [List.mem_cons, List.not_mem_nil, or_false] at hpart
        obtain rfl | rfl := hpart
        · omega
        · omega

/-- Ranges that are copied and make up the payload are one or two. -/
theorem count_le_two {parts : List (List UByte)} {count split : ℕ} (hsplit : 0 < split)
    (hsize : count * split = payload.length)
    (h : (splitRanges payload.length split count 0 0 split).mapM (fun r => slice payload r.1 r.2) =
      .ok parts) : count ≤ 2 := by
  by_contra hmany
  obtain ⟨more, rfl⟩ : ∃ more, count = more + 1 + 1 + 1 := ⟨count - 3, by omega⟩
  have hle : split ≤ (more + 1 + 1 + 1) * split := Nat.le_mul_of_pos_left split (by omega)
  rw [splitRanges, if_neg (by omega), List.mapM_cons] at h
  obtain ⟨first, -, htail⟩ := bind_eq_ok_iff.mp h
  obtain ⟨later, hlater, -⟩ := bind_eq_ok_iff.mp htail
  rw [splitRanges, if_neg (by omega), List.mapM_cons] at hlater
  obtain ⟨second, hsecond, hrest⟩ := bind_eq_ok_iff.mp hlater
  obtain ⟨third, hthird, -⟩ := bind_eq_ok_iff.mp hrest
  obtain ⟨-, -, hend, -⟩ := slice_eq_ok_iff.mp hsecond
  -- the third range begins where the fourth should
  have hreach := splitRanges_reach (Int.natCast_nonneg split) (by omega) (by omega) hend hthird
  have hmore : (((0 + 1 + 1 + (more + 1) + 1 : ℕ) : ℤ)) * split =
      ((more + 1 + 1 + 1) * split : ℕ) + split := by
    push_cast
    ring
  omega

/-- A payload that is partitioned although it is split has one or two parts. -/
theorem size_of_isPartition {parts : List (List UByte)} (hsize : payload.length ≤ 65535)
    (hsplit : m.dataSplitSize ≠ 0) (h : IsPartition m payload parts) :
    PartitionedSize m payload.length := by
  have hpos : 0 < m.dataSplitSize.toNat :=
    Nat.pos_of_ne_zero fun h => hsplit (UInt16.toNat_inj.mp h)
  by_cases hmax : payload.length < m.dataMaxSize.toNat
  · exact Or.inl hmax
  · by_cases hzero : payload.length = 0
    · exact Or.inr (Or.inl hzero)
    · apply Or.inr
      apply Or.inr
      obtain ⟨copy, m', hcopy, hrecords⟩ := h.copy
      rw [splitPacket, ranges_split hsplit hmax, ok_bind] at hcopy
      obtain ⟨copied, hcopied, hcopy⟩ := bind_eq_ok_iff.mp hcopy
      cases Except.ok.inj hcopy
      generalize hcount : payload.length / m.dataSplitSize.toNat % 256 = count at hcopied
      have hfew : count * m.dataSplitSize.toNat ≤ payload.length := by
        have hmod := Nat.mod_le (payload.length / m.dataSplitSize.toNat) 256
        exact (Nat.mul_le_mul_right _ (hcount ▸ hmod)).trans (Nat.div_mul_le_self _ _)
      have hcopies : copied.length = count := by
        rw [mapM_length hcopied, splitRanges_count]
      have hlengths : ∀ part ∈ copied, part.length = m.dataSplitSize.toNat := by
        intro part hpart
        have hle : m.dataSplitSize.toNat ≤ payload.length := by
          have hmany : 1 ≤ count := hcopies ▸ List.length_pos_of_mem hpart
          have honce := Nat.mul_le_mul_right m.dataSplitSize.toNat hmany
          omega
        have hlength := splitRanges_length (by omega) hcopied part hpart
        omega
      have htotal := flatten_length_of_eq hlengths
      rw [hcopies] at htotal
      rw [records_foldl _ (by omega)] at hrecords
      have hexact : count * m.dataSplitSize.toNat = payload.length := by
        rw [← htotal, Except.ok.inj hrecords, h.flatten]
      have htwo := count_le_two hpos hexact hcopied
      obtain rfl | rfl | rfl : count = 0 ∨ count = 1 ∨ count = 2 := by omega
      · omega
      · exact Or.inl (by omega)
      · exact Or.inr (by omega)

end Sizes

/-- A payload is partitioned exactly when it stays below the maximum, is empty, or is one or two
parts long. -/
theorem splitPartition_iff {m : QVPNPacketManager} {payload : List UByte}
    (hsize : payload.length ≤ 65535) (hsplit : m.dataSplitSize ≠ 0) :
    (∃ parts, IsPartition m payload parts) ↔ PartitionedSize m payload.length := by
  constructor
  · rintro ⟨parts, h⟩
    exact size_of_isPartition hsize hsplit h
  · intro h
    exact exists_isPartition hsize hsplit h

/-- A manager that splits payloads of four bytes or more into parts of three. -/
def smallSplit : QVPNPacketManager :=
  ((initial .increasing).setDataMaxSize 310).setDataSplitSize 3

/-- Six bytes are two parts of three. -/
theorem splitPartition_smallSplit : ∃ parts, IsPartition smallSplit [1, 2, 3, 4, 5, 6] parts :=
  (splitPartition_iff (by decide) (by decide)).mpr (Or.inr (Or.inr (Or.inr rfl)))

/-- Of four bytes the last one is lost, as it does not fill a part. -/
theorem smallSplit_loses_tail :
    smallSplit.dataSplitSize ≠ 0 ∧ ¬ ∃ parts, IsPartition smallSplit [1, 2, 3, 4] parts := by
  refine ⟨by decide, ?_⟩
  rintro ⟨parts, h⟩
  obtain ⟨copy, m', hcopy, hrecords⟩ := h.copy
  have hsplit : smallSplit.splitPacket [1, 2, 3, 4] =
      .ok (⟨0, [1, 2, 3], [(0, 3)]⟩, smallSplit.nextPacketId) := rfl
  rw [hsplit] at hcopy
  cases Except.ok.inj hcopy
  have hparts : ([[1, 2, 3]] : List (List UByte)) = parts := Except.ok.inj hrecords
  have hflat := h.flatten
  rw [← hparts] at hflat
  revert hflat
  decide

end QVPN
