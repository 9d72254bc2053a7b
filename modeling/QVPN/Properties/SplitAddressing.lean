import QVPN.Properties.SplitPartition

/-!
# Where the parts of a split container are read

Both containers add parts one behind the other and remember where. The container by value keeps
begin and end in sixteen bits; the view keeps the begin in sixteen bits and adds the length. A part
behind 65535 is read at a wrapped place, which is right only if its bytes stand there as well.
-/

namespace QVPN

open Memory Fragments

/-- Every part that was added is returned as it was. -/
def SplittedPacket.Addresses (s : SplittedPacket) (parts : List (List UByte)) : Prop :=
  ∀ (i : ℕ) (part : List UByte), parts[i]? = some part →
    s.getRawPacket i = .ok part ∧ (s.get i).map (List.drop 5) = .ok part

/-- The bytes of the range that is returned. -/
def SplittedPacketView.getRawBytes (s : SplittedPacketView) (mem : List UByte) (i : ℕ) :
    Except Fault (List UByte) := do
  let (b, e) ← s.getRawPacket i
  slice mem b e

/-- Every range that was added is returned as it was. -/
def SplittedPacketView.Addresses (s : SplittedPacketView) (mem : List UByte)
    (parts : List (List UByte)) : Prop :=
  ∀ (i : ℕ) (part : List UByte), parts[i]? = some part →
    s.getRawBytes mem i = .ok part ∧ (s.get mem i).map (List.drop 5) = .ok part

/-- The consecutive ranges of a buffer, added one after the other. -/
def SplittedPacketView.ofRanges (id : UByte) (pos : ℕ) (parts : List (List UByte)) :
    SplittedPacketView :=
  (spans pos parts).foldl (fun s r => s.addData r.1 r.2) ⟨id, none, 0, []⟩

/-- The bytes of a part stand at its wrapped place. -/
def StandsWrapped (parts : List (List UByte)) (i : ℕ) (part : List UByte) : Prop :=
  (parts.flatten.drop (start parts i % 65536)).take part.length = part

section Part

variable {parts : List (List UByte)} {i : ℕ} {part : List UByte}

/-- A part is the range from its begin to its end. -/
theorem part_range (hpart : parts[i]? = some part) :
    start parts i + part.length ≤ parts.flatten.length ∧
      (parts.flatten.drop (start parts i)).take part.length = part := by
  have hslice := slice_start hpart
  rw [← Nat.cast_add, slice_natCast_eq_ok_iff, Nat.add_sub_cancel_left] at hslice
  exact ⟨hslice.2.1, hslice.2.2.symm⟩

/-- Where a part was remembered, in whatever form. -/
theorem readAt_spans {β : Type} (f : ℕ × ℕ → β) (hpart : parts[i]? = some part) :
    readAt ((spans 0 parts).map f) i = .ok (f (start parts i, start parts i + part.length)) := by
  rw [readAt_eq_ok_iff, List.getElem?_map, spans_getElem?, hpart, Option.map_some, Option.map_some,
    Nat.zero_add]

/-- A part that begins before the wrap stands at its place. -/
theorem standsWrapped_of_lt (hpart : parts[i]? = some part) (h : start parts i < 65536) :
    StandsWrapped parts i part := by
  rw [StandsWrapped, Nat.mod_eq_of_lt h]
  exact (part_range hpart).2

/-- The range between the wrapped ends is the part if it has the length and the bytes of it. -/
theorem slice_wrapped_iff (hpart : parts[i]? = some part) :
    slice parts.flatten ((start parts i % 65536 : ℕ) : ℤ)
        (((start parts i + part.length) % 65536 : ℕ) : ℤ) = .ok part ↔
      part = [] ∨ start parts i + part.length < 65536 ∨
        start parts i / 65536 = (start parts i + part.length) / 65536 ∧
          StandsWrapped parts i part := by
  have hend := (part_range hpart).1
  rw [slice_natCast_eq_ok_iff]
  constructor
  · intro ⟨hle, hfits, htake⟩
    have hlength := congrArg List.length htake
    rw [List.length_take, List.length_drop, Nat.min_eq_left (by omega)] at hlength
    by_cases hnil : part = []
    · exact Or.inl hnil
    · have hpos := List.length_pos_iff.mpr hnil
      rw [← hlength] at htake
      exact Or.inr (Or.inr ⟨by omega, htake.symm⟩)
  · intro hcases
    have hsame : start parts i / 65536 = (start parts i + part.length) / 65536 ∧
        StandsWrapped parts i part := by
      rcases hcases with hnil | hlt | hwrapped
      · rw [hnil]
        exact ⟨rfl, rfl⟩
      · exact ⟨by omega, standsWrapped_of_lt hpart (by omega)⟩
      · exact hwrapped
    obtain ⟨hblock, hstands⟩ := hsame
    have hlength : (start parts i + part.length) % 65536 - start parts i % 65536 = part.length := by
      omega
    rw [hlength]
    exact ⟨by omega, by omega, hstands.symm⟩

/-- The range from the wrapped begin on is the part if it has the bytes of it. -/
theorem slice_begin_wrapped_iff (hpart : parts[i]? = some part) (before after : List UByte) :
    slice (before ++ parts.flatten ++ after)
        ((before.length + start parts i % 65536 : ℕ) : ℤ)
        ((before.length + start parts i % 65536 + part.length : ℕ) : ℤ) = .ok part ↔
      start parts i < 65536 ∨ StandsWrapped parts i part := by
  have hend := (part_range hpart).1
  have hmod := Nat.mod_le (start parts i) 65536
  have hcut : ((before ++ parts.flatten ++ after).drop (before.length + start parts i % 65536)).take
      part.length = (parts.flatten.drop (start parts i % 65536)).take part.length := by
    rw [List.append_assoc, ← List.drop_drop, List.drop_left,
      List.drop_append_of_le_length (by omega), List.take_append_of_le_length]
    rw [List.length_drop]
    omega
  rw [slice_natCast_eq_ok_iff, Nat.add_sub_cancel_left, hcut]
  constructor
  · intro ⟨_, _, htake⟩
    exact Or.inr htake.symm
  · intro hcases
    have hstands : StandsWrapped parts i part := hcases.elim (standsWrapped_of_lt hpart) id
    refine ⟨Nat.le_add_right _ _, ?_, hstands.symm⟩
    simp only [List.length_append]
    omega

end Part

section Containers

variable {parts : List (List UByte)} {i : ℕ} {part : List UByte}

/-- Behind the header `get` has the part that the other getter returns. -/
theorem SplittedPacket.get_data (s : SplittedPacket) (i : ℕ) :
    (s.get i).map (List.drop 5) = s.getRawPacket i := by
  rw [get, getRawPacket]
  cases readAt s.separators i with
  | error e => rfl
  | ok r =>
    obtain ⟨b, e⟩ := r
    rw [ok_bind, ok_bind]
    dsimp only
    cases slice s.data b.toNat e.toNat with
    | error fault => rfl
    | ok body => rfl

/-- Behind the header `get` has the bytes of the range that the other getter returns. -/
theorem SplittedPacketView.get_data (s : SplittedPacketView) (mem : List UByte) (i : ℕ) :
    (s.get mem i).map (List.drop 5) = s.getRawBytes mem i := by
  rw [get, getRawBytes, getRawPacket]
  cases readAt s.separators i with
  | error e => rfl
  | ok r =>
    rw [ok_bind, ok_bind]
    cases s.data with
    | none => rfl
    | some data =>
      change ((slice mem (data + r.1) (data + r.2) >>= fun body => pure (_ ++ body)).map _ :
        Except Fault (List UByte)) = slice mem (data + r.1) (data + r.2)
      cases slice mem (data + r.1) (data + r.2) with
      | error e => rfl
      | ok body => rfl

/-- A part held by value is read between its wrapped ends. -/
theorem SplittedPacket.getRawPacket_foldl (id : UByte) (hpart : parts[i]? = some part) :
    (parts.foldl addData ⟨id, [], []⟩).getRawPacket i =
      slice parts.flatten ((start parts i % 65536 : ℕ) : ℤ)
        (((start parts i + part.length) % 65536 : ℕ) : ℤ) := by
  rw [foldl_addData, getRawPacket]
  dsimp only [List.nil_append, List.length_nil]
  rw [readAt_spans _ hpart, ok_bind, UInt16.toNat_ofNat', UInt16.toNat_ofNat']

/-- The view of consecutive ranges. -/
theorem SplittedPacketView.ofRanges_eq (id : UByte) (pos : ℕ) (hne : parts ≠ []) :
    ofRanges id pos parts = ⟨id, some pos, UInt16.ofNat parts.flatten.length,
      (spans 0 parts).map fun r => (r.1 % 65536, ((r.1 % 65536 + (r.2 - r.1) : ℕ) : ℤ))⟩ := by
  cases parts with
  | nil => exact absurd rfl hne
  | cons part parts =>
    -- the first range fixes the begin, which is then kept
    have hfold := foldl_addData_wrapped id pos pos 0 [] (part :: parts)
    rw [Nat.zero_add, List.nil_append] at hfold
    exact hfold

/-- A range is read from its wrapped begin on. -/
theorem SplittedPacketView.getRawBytes_ofRanges (id : UByte) (pos : ℕ) (mem : List UByte)
    (hpart : parts[i]? = some part) :
    (ofRanges id pos parts).getRawBytes mem i =
      slice mem ((pos + start parts i % 65536 : ℕ) : ℤ)
        ((pos + start parts i % 65536 + part.length : ℕ) : ℤ) := by
  have hne : parts ≠ [] := by
    intro hnil
    rw [hnil] at hpart
    cases hpart
  rw [ofRanges_eq id pos hne, getRawBytes, getRawPacket, readAt_spans _ hpart, ok_bind]
  simp only [pure_bind, Nat.add_sub_cancel_left, Nat.add_assoc, Nat.cast_add]

/-- The container by value addresses the parts whose wrapped ends hold them. -/
theorem SplittedPacket.addresses_iff (id : UByte) (parts : List (List UByte)) :
    (parts.foldl addData ⟨id, [], []⟩).Addresses parts ↔
      ∀ (i : ℕ) (part : List UByte), parts[i]? = some part →
        part = [] ∨ start parts i + part.length < 65536 ∨
          start parts i / 65536 = (start parts i + part.length) / 65536 ∧
            StandsWrapped parts i part := by
  rw [Addresses]
  refine forall₃_congr fun i part hpart => ?_
  rw [get_data, and_self, getRawPacket_foldl id hpart, slice_wrapped_iff hpart]

/-- The view addresses the ranges that stand at their wrapped begins. -/
theorem SplittedPacketView.addresses_iff (id : UByte) (before : List UByte)
    (parts : List (List UByte)) (after : List UByte) :
    (ofRanges id before.length parts).Addresses (before ++ parts.flatten ++ after) parts ↔
      ∀ (i : ℕ) (part : List UByte), parts[i]? = some part →
        start parts i < 65536 ∨ StandsWrapped parts i part := by
  rw [Addresses]
  refine forall₃_congr fun i part hpart => ?_
  rw [get_data, and_self, getRawBytes_ofRanges id _ _ hpart, slice_begin_wrapped_iff hpart]

end Containers

/-- The two containers return every part that was added exactly when the parts fit the separators,
or the bytes behind them stand at their wrapped places as well. -/
theorem splitContainers_address_iff (id : UByte) (parts : List (List UByte))
    (before after : List UByte) :
    ((parts.foldl SplittedPacket.addData ⟨id, [], []⟩).Addresses parts ↔
      ∀ (i : ℕ) (part : List UByte), parts[i]? = some part →
        part = [] ∨ start parts i + part.length < 65536 ∨
          start parts i / 65536 = (start parts i + part.length) / 65536 ∧
            StandsWrapped parts i part) ∧
    ((SplittedPacketView.ofRanges id before.length parts).Addresses
        (before ++ parts.flatten ++ after) parts ↔
      ∀ (i : ℕ) (part : List UByte), parts[i]? = some part →
        start parts i < 65536 ∨ StandsWrapped parts i part) :=
  ⟨SplittedPacket.addresses_iff id parts, SplittedPacketView.addresses_iff id before parts after⟩

/-- One byte behind 65535 others cannot be read from the container by value. Behind 65536 zeros it is
read as zero from both. -/
theorem splitContainers_wrap :
    (([List.replicate 65535 0, [1]].foldl SplittedPacket.addData ⟨0, [], []⟩).getRawPacket 1 =
      .error .invalidRange) ∧
    (([List.replicate 65536 0, [1]].foldl SplittedPacket.addData ⟨0, [], []⟩).getRawPacket 1 =
      .ok [0]) ∧
    (SplittedPacketView.ofRanges 0 0 [List.replicate 65536 0, [1]]).getRawBytes
        (List.replicate 65536 0 ++ [1]) 1 = .ok [0] := by
  have hstart (n : ℕ) : start [List.replicate n (0 : UByte), [1]] 1 = n := by
    simp only [start, List.take_succ_cons, List.take_zero, List.flatten_singleton,
      List.length_replicate]
  have hzero (rest : List UByte) :
      slice (List.replicate 65536 0 ++ rest) ((0 : ℕ) : ℤ) ((1 : ℕ) : ℤ) = .ok [0] := by
    rw [List.replicate_succ, ← List.singleton_append, List.append_assoc]
    exact slice_prefix [0] _ 1 rfl
  refine ⟨?_, ?_, ?_⟩
  · rw [SplittedPacket.getRawPacket_foldl 0 rfl, hstart, slice, if_pos ⟨Int.natCast_nonneg _,
      Int.natCast_nonneg _⟩, if_neg (by decide)]
  · rw [SplittedPacket.getRawPacket_foldl 0 rfl, hstart]
    exact hzero _
  · rw [SplittedPacketView.getRawBytes_ofRanges 0 0 _ rfl, hstart]
    exact hzero _

end QVPN
