import QVPN.Driver.PacketManager

/-!
# Reassembly of one packet

A byte string is cut into contiguous non-empty parts, and each part is sent with its true
offset and the true size. The builder looks for the value of an offset among the bytes it
holds, so the order of arrival and the bytes themselves decide where a part lands.

A delivery is correct for every byte content exactly when the parts arrive in order and no
offset after the first fits into a byte. For a single byte content it is correct whenever
every search stops where the part belongs.
-/

namespace QVPN

open BigEndian Memory QVPNPacketManager

/-- A non-empty byte string cut into non-empty parts, small enough for its own headers. -/
structure CutPacket where
  parts : List (List UByte)
  parts_ne : parts ≠ []
  part_ne : ∀ part ∈ parts, part ≠ []
  size_le : parts.flatten.length ≤ 65535

namespace CutPacket

/-- The string that was cut. -/
def raw (c : CutPacket) : List UByte := c.parts.flatten

/-- The offset a part announces. -/
def offset (c : CutPacket) (i : ℕ) : UShort := UInt16.ofNat (Fragments.start c.parts i)

/-- The size every part announces. -/
def size (c : CutPacket) : UShort := UInt16.ofNat c.raw.length

/-- The message that carries a part. -/
def message (c : CutPacket) (id : UByte) (i : ℕ) : List UByte :=
  PacketBuilderData.bytes ⟨id, c.offset i, c.size⟩ ++ c.parts.getD i []

/-- The sizes of the parts, which is all the cut itself determines. -/
def sizes (c : CutPacket) : List ℕ := c.parts.map List.length

/-- The builder made of the parts delivered so far, in the order of delivery. -/
def collect (c : CutPacket) (order : List ℕ) : PacketBuilder :=
  order.foldl (fun pb i => pb.addData (c.offset i) (c.parts.getD i [])) ⟨c.size, [], false⟩

/-- Deliver messages one after the other. -/
def deliver (m : QVPNPacketManager) (c : CutPacket) (id : UByte) (order : List ℕ) :
    QVPNPacketManager :=
  order.foldl (fun m i => (m.buildPacket (c.message id i)).2) m

/-- The packet is full exactly after the last part, with the original bytes, and is popped so. -/
def Reassembles (m : QVPNPacketManager) (c : CutPacket) (id : UByte) (order : List ℕ) : Prop :=
  (∀ k < order.length, (c.deliver m id (order.take k)).fullAt id = false) ∧
    (∃ pb, (c.deliver m id order).packets id = some pb ∧ pb.isFull = true ∧ pb.data = c.raw) ∧
    (m.Settled → ∃ m', (c.deliver m id order).popIfFull = .ok (some c.raw, m'))

/-- Every search stops where the part belongs among the parts delivered before it. -/
def SearchHits (c : CutPacket) (order : List ℕ) : Prop :=
  ∀ k < order.length, ∀ i, order[k]? = some i →
    PacketBuilder.find (Fragments.gather c.parts (fun j => decide (j ∈ order.take k)))
      (c.offset i) = Fragments.place c.parts (fun j => decide (j ∈ order.take k)) i

end CutPacket

/-- Parts arrive in order, and every part but the first starts beyond the values of a byte. -/
def SafeDelivery (sizes order : List ℕ) : Prop :=
  order = List.range sizes.length ∧ (sizes.length = 1 ∨ 256 ≤ sizes.headD 0)

namespace CutPacket

variable {c : CutPacket} {m : QVPNPacketManager} {id : UByte} {order : List ℕ}

/-- Appending a delivery delivers after the earlier ones. -/
theorem deliver_concat (m : QVPNPacketManager) (c : CutPacket) (id : UByte) (order : List ℕ)
    (i : ℕ) : c.deliver m id (order ++ [i]) =
      ((c.deliver m id order).buildPacket (c.message id i)).2 := by
  simp only [deliver, List.foldl_append, List.foldl_cons, List.foldl_nil]

theorem collect_concat (c : CutPacket) (order : List ℕ) (i : ℕ) :
    c.collect (order ++ [i]) = (c.collect order).addData (c.offset i) (c.parts.getD i []) := by
  simp only [collect, List.foldl_append, List.foldl_cons, List.foldl_nil]

@[simp] theorem collect_originalSize (c : CutPacket) (order : List ℕ) :
    (c.collect order).originalSize = c.size := by
  induction order using List.reverseRecOn with
  | nil => rfl
  | append_singleton rest i ih => rw [collect_concat, PacketBuilder.addData_originalSize, ih]

/-- The announced size is the real one. -/
theorem size_toNat (c : CutPacket) : c.size.toNat = c.raw.length := by
  have := c.size_le
  rw [size, UInt16.toNat_ofNat']
  exact Nat.mod_eq_of_lt (by rw [raw]; omega)

/-- A part and everything in front of it fit into the string. -/
theorem start_add_length_le (c : CutPacket) {i : ℕ} (hi : i < c.parts.length) :
    Fragments.start c.parts i + c.parts[i].length ≤ c.raw.length := by
  have hsplit : c.parts = c.parts.take i ++ c.parts[i] :: c.parts.drop (i + 1) := by simp
  have hlen := congrArg (fun ps => ps.flatten.length) hsplit
  simp only [List.flatten_append, List.flatten_cons, List.length_append] at hlen
  rw [raw, Fragments.start]
  omega

theorem offset_toNat (c : CutPacket) {i : ℕ} (hi : i < c.parts.length) :
    (c.offset i).toNat = Fragments.start c.parts i := by
  have := c.start_add_length_le hi
  have := c.size_le
  rw [offset, UInt16.toNat_ofNat']
  exact Nat.mod_eq_of_lt (by rw [raw] at *; omega)

/-- Every message of a cut packet passes the check of its own header. -/
theorem admitted (c : CutPacket) {i : ℕ} (hi : i < c.parts.length) :
    Admitted (c.offset i) c.size (c.parts.getD i []) := by
  have hget : c.parts.getD i [] = c.parts[i] := List.getD_eq_getElem _ _ hi
  have hle := c.start_add_length_le hi
  refine ⟨?_, ?_⟩
  · rw [hget]
    exact c.part_ne _ (List.getElem_mem hi)
  · rw [hget, c.offset_toNat hi, c.size_toNat]
    omega

/-- Deliveries of one packet touch only its own builder, which collects the parts. -/
theorem deliver_eq (hid : m.packets id = none) (horder : ∀ i ∈ order, i < c.parts.length) :
    c.deliver m id order = { m with
      packets := Function.update m.packets id
        (if order = [] then none else some (c.collect order)) } := by
  induction order using List.reverseRecOn with
  | nil =>
    rw [if_pos rfl, ← hid, Function.update_eq_self]
    rfl
  | append_singleton rest i ih =>
    have hi : i < c.parts.length := horder i (by simp)
    rw [deliver_concat, ih fun j hj => horder j (by simp [hj]), message]
    by_cases hrest : rest = []
    · subst hrest
      rw [buildPacket_new (c.admitted hi) (by simp)]
      simp only [List.nil_append, if_true, Function.update_idem, List.cons_ne_nil, if_false]
      rfl
    · rw [buildPacket_add (c.admitted hi)
        (show _ = some (c.collect rest) by simp [hrest])]
      simp only [Function.update_idem, collect_concat, List.append_eq_nil_iff, List.cons_ne_nil,
        and_false, if_false]

/-- Between the deliveries the builder holds the bytes of the parts delivered. -/
theorem collect_perm (c : CutPacket) (order : List ℕ) :
    (c.collect order).data.Perm (order.flatMap fun i => c.parts.getD i []) := by
  induction order using List.reverseRecOn with
  | nil => exact List.Perm.refl _
  | append_singleton rest i ih =>
    rw [collect_concat, List.flatMap_append, List.flatMap_cons, List.flatMap_nil, List.append_nil]
    exact (PacketBuilder.addData_perm _ _ _).trans (ih.append_right _)

/-- As many bytes are collected as there are in the parts delivered. -/
theorem collect_length (hnodup : order.Nodup) (horder : ∀ i ∈ order, i < c.parts.length) :
    (c.collect order).data.length =
      (Fragments.gather c.parts fun j => decide (j ∈ order)).length :=
  ((c.collect_perm order).trans (Fragments.flatMap_perm_gather hnodup horder)).length_eq

/-- The builder is full exactly when all parts were delivered. -/
theorem collect_isFull_iff (hnodup : order.Nodup) (horder : ∀ i ∈ order, i < c.parts.length) :
    (c.collect order).isFull = true ↔ order.length = c.parts.length := by
  induction order using List.reverseRecOn with
  | nil =>
    have := List.length_pos_iff.mpr c.parts_ne
    simp only [collect, List.foldl_nil, List.length_nil]
    constructor
    · intro h
      cases h
    · omega
  | append_singleton rest i ih =>
    have hsub := List.Nodup.subperm hnodup fun j hj => List.mem_range.mpr (horder j hj)
    have hle := hsub.length_le
    simp only [List.length_append, List.length_cons, List.length_nil, List.length_range] at hle
    have hrest := ih (hnodup.sublist (by simp)) fun j hj => horder j (by simp [hj])
    have hnot : (c.collect rest).isFull = false := by
      rw [← Bool.not_eq_true, hrest]
      omega
    have hlen := collect_length hnodup horder
    rw [collect_concat] at hlen ⊢
    simp only [PacketBuilder.addData, hnot, Bool.false_or, beq_iff_eq] at hlen ⊢
    rw [hlen, collect_originalSize, size_toNat, raw, Fragments.gather_length_eq_iff c.part_ne,
      ← Fragments.forall_mem_iff_length hnodup horder]
    simp

/-- As long as every search hits, the builder holds the parts present in their order. -/
theorem collect_of_searchHits (horder : ∀ i ∈ order, i < c.parts.length) (hnodup : order.Nodup)
    (hhits : c.SearchHits order) :
    (c.collect order).data = Fragments.gather c.parts (fun j => decide (j ∈ order)) := by
  induction order using List.reverseRecOn with
  | nil => exact (Fragments.gather_none _ (by simp)).symm
  | append_singleton rest i ih =>
    have hi : i < c.parts.length := horder i (by simp)
    have hnot : i ∉ rest := 
      fun h => (List.nodup_append.mp hnodup).2.2 i h i (by simp) rfl
    have hrest : c.SearchHits rest := by
      intro k hk j hj
      have := hhits k (by simp; omega) j (by rw [List.getElem?_append_left hk]; exact hj)
      rwa [List.take_append_of_le_length (by omega)] at this
    have hdata := ih (fun j hj => horder j (by simp [hj])) (hnodup.sublist (by simp)) hrest
    have hfind := hhits rest.length (by simp) i (by simp)
    rw [List.take_left] at hfind
    rw [collect_concat, Fragments.mem_concat_eq_update]
    have hpb : c.collect rest = ⟨c.size, Fragments.gather c.parts (fun j => decide (j ∈ rest)),
        (c.collect rest).isFull⟩ := by
      rw [← hdata, ← collect_originalSize c rest]
    rw [hpb, List.getD_eq_getElem _ _ hi,
      PacketBuilder.addData_gather _ _ hi (by simpa using hnot) hfind]

/-- The parts in any order, each once. -/
private theorem perm_facts (hperm : order.Perm (List.range c.parts.length)) :
    order.Nodup ∧ (∀ i ∈ order, i < c.parts.length) ∧ order.length = c.parts.length :=
  ⟨hperm.nodup_iff.mpr List.nodup_range, fun i hi => List.mem_range.mp (hperm.mem_iff.mp hi),
    by rw [hperm.length_eq, List.length_range]⟩

/-- A complete delivery is correct exactly when the collected bytes are the original ones. -/
theorem reassembles_iff (hid : m.packets id = none)
    (hperm : order.Perm (List.range c.parts.length)) :
    c.Reassembles m id order ↔ (c.collect order).data = c.raw := by
  obtain ⟨hnodup, hbound, hlen⟩ := perm_facts hperm
  have hparts := List.length_pos_iff.mpr c.parts_ne
  have hne : order ≠ [] := List.length_pos_iff.mp (by omega)
  have hfull : (c.collect order).isFull = true := (collect_isFull_iff hnodup hbound).mpr hlen
  have hfinal := deliver_eq hid hbound
  rw [if_neg hne] at hfinal
  constructor
  · rintro ⟨-, ⟨pb, hpb, -, hdata⟩, -⟩
    rw [hfinal] at hpb
    simp only [Function.update_self, Option.some.injEq] at hpb
    rw [hpb, hdata]
  · intro hdata
    refine ⟨?_, ⟨c.collect order, by rw [hfinal]; simp, hfull, hdata⟩, ?_⟩
    · intro k hk
      have hkbound : ∀ i ∈ order.take k, i < c.parts.length :=
        fun i hi => hbound i (List.mem_of_mem_take hi)
      have hpart : (c.collect (order.take k)).isFull = false := by
        rw [← Bool.not_eq_true,
          collect_isFull_iff (hnodup.sublist (List.take_sublist _ _)) hkbound, List.length_take]
        omega
      rw [deliver_eq hid hkbound, fullAt]
      by_cases hnil : order.take k = []
      · simp [hnil]
      · simp [hnil, hpart]
    · intro hsettled
      have hpop := popIfFull_of_full
        (show (c.deliver m id order).packets id = some (c.collect order) by rw [hfinal]; simp) hfull
        (by
          intro other hother
          have hnone := hsettled.none_full other
          rw [hfinal]
          simpa [fullAt, hother] using hnone)
      exact ⟨_, by rw [hpop, hdata]⟩

/-- If every search hits, the packet is reassembled. -/
theorem reassembles_of_searchHits (hid : m.packets id = none)
    (hperm : order.Perm (List.range c.parts.length)) (hhits : c.SearchHits order) :
    c.Reassembles m id order := by
  obtain ⟨hnodup, hbound, hlen⟩ := perm_facts hperm
  rw [reassembles_iff hid hperm, collect_of_searchHits hbound hnodup hhits,
    Fragments.gather_all, raw]
  intro i hi
  rw [decide_eq_true_iff]
  exact (Fragments.forall_mem_iff_length hnodup hbound).mpr hlen i hi

/-- In order and beyond the values of a byte, every search runs to the end, where it belongs. -/
theorem searchHits_of_safeDelivery (hsafe : SafeDelivery c.sizes order) : c.SearchHits order := by
  obtain ⟨hrange, hwide⟩ := hsafe
  have hcount : c.sizes.length = c.parts.length := by simp [sizes]
  rw [hcount] at hrange hwide
  subst hrange
  intro k hk i hki
  rw [List.length_range] at hk
  rw [List.getElem?_range hk, Option.some.injEq] at hki
  subst hki
  have htake : (List.range c.parts.length).take k = List.range k := by
    rw [List.take_range, Nat.min_eq_left (by omega)]
  have hplace : Fragments.place c.parts (fun j => decide (j ∈ List.range k)) k =
      (Fragments.gather c.parts (fun j => decide (j ∈ List.range k))).length := by
    have hsplit : c.parts = c.parts.take k ++ c.parts.drop k := by simp
    conv_rhs => rw [hsplit, Fragments.gather_append]
    rw [Fragments.gather_none (c.parts.drop k), List.append_nil, Fragments.place]
    intro j _
    simp
    omega
  rw [htake, hplace]
  by_cases hk0 : k = 0
  · subst hk0
    rw [Fragments.gather_none _ (by simp)]
    rfl
  · refine PacketBuilder.find_of_ge ?_ _
    rw [c.offset_toNat hk, Fragments.start]
    obtain ⟨part, rest, hcons⟩ := List.exists_cons_of_ne_nil c.parts_ne
    have hhead : 256 ≤ part.length := by
      rcases hwide with h1 | h2
      · omega
      · simpa [sizes, hcons] using h2
    obtain ⟨k, rfl⟩ := Nat.exists_eq_succ_of_ne_zero hk0
    rw [hcons, List.take_succ_cons, List.flatten_cons, List.length_append]
    omega

/-- Bytes of one value in front of the data stay there when more of them are inserted. -/
private theorem addData_keeps_front {pb : PacketBuilder} {offset : UShort} {body : List UByte}
    {v : UByte} {n : ℕ} (hfront : ∀ j < n, pb.data[j]? = some v) (hbody : ∀ b ∈ body, b = v) :
    ∀ j < n, (pb.addData offset body).data[j]? = some v := by
  intro j hj
  change (pb.data.take (PacketBuilder.find pb.data offset) ++ body ++
    pb.data.drop (PacketBuilder.find pb.data offset))[j]? = some v
  generalize PacketBuilder.find pb.data offset = pos
  rw [List.append_assoc]
  by_cases hpos : j < (pb.data.take pos).length
  · rw [List.getElem?_append_left hpos, List.getElem?_take_of_lt (by simp at hpos; omega)]
    exact hfront j hj
  · rw [List.getElem?_append_right (by omega)]
    by_cases hmid : j - (pb.data.take pos).length < body.length
    · rw [List.getElem?_append_left hmid, List.getElem?_eq_getElem hmid,
        hbody _ (List.getElem_mem hmid)]
    · rw [List.getElem?_append_right (by omega), List.getElem?_drop]
      have hlen := (List.getElem?_eq_some_iff.mp (hfront j hj)).1
      refine hfront _ ?_
      simp only [List.length_take] at hpos hmid ⊢
      omega

/-- Later parts of one value leave the bytes of that value in front of the data alone. -/
theorem collect_keeps_front {before : List ℕ} {v : UByte} {n : ℕ} (after : List ℕ)
    (hfront : ∀ j < n, (c.collect before).data[j]? = some v)
    (hafter : ∀ i ∈ after, ∀ b ∈ c.parts.getD i [], b = v) :
    ∀ j < n, (c.collect (before ++ after)).data[j]? = some v := by
  induction after using List.reverseRecOn with
  | nil => simpa using hfront
  | append_singleton rest i ih =>
    rw [← List.append_assoc, collect_concat]
    exact addData_keeps_front (ih fun j hj => hafter j (by simp [hj])) (hafter i (by simp))

/-- The first byte of a part stands at the start of the part. -/
theorem raw_getElem?_start (c : CutPacket) {i : ℕ} (hi : i < c.parts.length) :
    c.raw[Fragments.start c.parts i]? = c.parts[i][0]? := by
  have hsplit : c.parts = c.parts.take i ++ c.parts[i] :: c.parts.drop (i + 1) := by simp
  have hlen := List.length_pos_iff.mpr (c.part_ne _ (List.getElem_mem hi))
  rw [raw, Fragments.start]
  conv_lhs => rw [hsplit, List.flatten_append, List.flatten_cons]
  rw [← hsplit, List.getElem?_append_right (by omega), Nat.sub_self,
    List.getElem?_append_left hlen]

/-- The parts before a part, one after the other, reach up to its start. -/
theorem flatMap_range_length (c : CutPacket) {k : ℕ} (hk : k ≤ c.parts.length) :
    ((List.range k).flatMap fun i => c.parts.getD i []).length = Fragments.start c.parts k := by
  induction k with
  | zero => rfl
  | succ k ih =>
    have hget : c.parts.getD k [] = c.parts[k] := List.getD_eq_getElem _ _ (by omega)
    rw [List.range_succ, List.flatMap_append, List.length_append, ih (by omega), Fragments.start,
      Fragments.start, List.take_succ_eq_append_getElem (by omega), List.flatten_append]
    simp only [List.flatMap_cons, List.flatMap_nil, List.append_nil, List.flatten_cons,
      List.flatten_nil, List.length_append, hget]

/-- The lengths of one-valued parts are the given sizes. -/
private theorem mapIdx_replicate_lengths (sizes : List ℕ) (paint : ℕ → UByte) :
    (sizes.mapIdx fun i s => List.replicate s (paint i)).map List.length = sizes := by
  apply List.ext_getElem
  · simp
  · intro i h1 h2
    simp

/-- A packet of a given shape whose parts are filled with one value each. -/
def painted (sizes : List ℕ) (paint : ℕ → UByte) (hne : sizes ≠ []) (hpos : ∀ s ∈ sizes, 0 < s)
    (hsize : sizes.sum ≤ 65535) : CutPacket where
  parts := sizes.mapIdx fun i s => List.replicate s (paint i)
  parts_ne := by simpa using hne
  part_ne := by
    intro part hpart
    obtain ⟨i, hi, rfl⟩ := List.mem_mapIdx.mp hpart
    have := hpos sizes[i] (List.getElem_mem hi)
    simp
    omega
  size_le := by
    rw [List.length_flatten, mapIdx_replicate_lengths]
    exact hsize

section Painted

variable {sizes : List ℕ} {paint : ℕ → UByte} {hne : sizes ≠ []} {hpos : ∀ s ∈ sizes, 0 < s}
  {hsize : sizes.sum ≤ 65535}

@[simp] theorem painted_sizes : (painted sizes paint hne hpos hsize).sizes = sizes :=
  mapIdx_replicate_lengths sizes paint

@[simp] theorem painted_length :
    (painted sizes paint hne hpos hsize).parts.length = sizes.length := by
  simp [painted]

/-- A painted part is its value repeated. -/
theorem painted_getD {i : ℕ} (hi : i < sizes.length) :
    (painted sizes paint hne hpos hsize).parts.getD i [] =
      List.replicate sizes[i] (paint i) := by
  rw [List.getD_eq_getElem _ _ (by simpa using hi)]
  simp only [painted, List.getElem_mapIdx]

/-- A painted part holds its own value only. -/
theorem painted_part (i : ℕ) :
    ∀ b ∈ (painted sizes paint hne hpos hsize).parts.getD i [], b = paint i := by
  intro b hb
  by_cases hi : i < sizes.length
  · rw [painted_getD hi, List.mem_replicate] at hb
    exact hb.2
  · rw [List.getD_eq_default _ _ (by simpa using hi)] at hb
    cases hb

/-- The original string has a part's value at the part's start. -/
theorem painted_raw_start {i : ℕ} (hi : i < sizes.length) :
    (painted sizes paint hne hpos hsize).raw[Fragments.start
      (painted sizes paint hne hpos hsize).parts i]? = some (paint i) := by
  have hs := hpos sizes[i] (List.getElem_mem hi)
  rw [raw_getElem?_start _ (by simpa using hi)]
  simp only [painted, List.getElem_mapIdx]
  rw [List.getElem?_replicate, if_pos hs]

/-- All collected bytes have a value if all delivered parts do. -/
theorem collect_all_eq {order : List ℕ} {v : UByte}
    (hv : ∀ i ∈ order, ∀ b ∈ c.parts.getD i [], b = v) : ∀ b ∈ (c.collect order).data, b = v := by
  intro b hb
  obtain ⟨i, hi, hbi⟩ := List.mem_flatMap.mp ((c.collect_perm order).mem_iff.mp hb)
  exact hv i hi b hbi

/-- A part delivered when later bytes are already there can be misplaced. -/
private theorem exists_misplaced_of_late {k i : ℕ} {mid post : List ℕ}
    (hperm : (List.range k ++ i :: (mid ++ k :: post)).Perm (List.range sizes.length))
    (hne : sizes ≠ []) (hpos : ∀ s ∈ sizes, 0 < s) (hsize : sizes.sum ≤ 65535) :
    ∃ c : CutPacket, c.sizes = sizes ∧
      (c.collect (List.range k ++ i :: (mid ++ k :: post))).data ≠ c.raw := by
  have hnodup := hperm.nodup_iff.mpr List.nodup_range
  have hbound : ∀ j ∈ List.range k ++ i :: (mid ++ k :: post), j < sizes.length :=
    fun j hj => List.mem_range.mp (hperm.mem_iff.mp hj)
  have hk : k < sizes.length := hbound k (by simp)
  have hi : i < sizes.length := hbound i (by simp)
  set v : UByte := if (sizes.take k).sum = 0 then 1 else 0 with hv
  have hv2 : v ≠ 2 := by rw [hv]; split <;> decide
  set c := painted sizes (fun j => if j = k then 2 else v) hne hpos hsize with hc
  have hcount : c.parts.length = sizes.length := painted_length
  have hstart : Fragments.start c.parts k = (sizes.take k).sum := by
    rw [Fragments.start, List.length_flatten, List.map_take]
    exact congrArg (fun l : List ℕ => (l.take k).sum) painted_sizes
  -- every part but the late one is filled with `v`
  have hfill : ∀ j, j ≠ k → ∀ b ∈ c.parts.getD j [], b = v := by
    intro j hj b hb
    have := painted_part j b hb
    rwa [if_neg hj] at this
  have hsplit : List.range k ++ i :: (mid ++ k :: post) =
      (List.range k ++ i :: mid) ++ [k] ++ post := by simp
  rw [hsplit] at hnodup
  have hbefore : k ∉ List.range k ++ i :: mid := fun h =>
    (List.nodup_append.mp (List.nodup_append.mp hnodup).1).2.2 k h k (by simp) rfl
  have hpost : k ∉ post := fun h => (List.nodup_append.mp hnodup).2.2 k (by simp) k h rfl
  have hdata : ∀ b ∈ (c.collect (List.range k ++ i :: mid)).data, b = v :=
    collect_all_eq fun j hj => hfill j (fun h => hbefore (h ▸ hj))
  have hlong : Fragments.start c.parts k + 1 ≤
      (c.collect (List.range k ++ i :: mid)).data.length := by
    have hi' : 0 < (c.parts.getD i []).length := by
      rw [List.getD_eq_getElem _ _ (by omega)]
      exact List.length_pos_iff.mpr (c.part_ne _ (List.getElem_mem (by omega)))
    rw [(c.collect_perm _).length_eq, List.flatMap_append, List.length_append,
      c.flatMap_range_length (by omega), List.flatMap_cons, List.length_append]
    omega
  have hsearch : PacketBuilder.find (c.collect (List.range k ++ i :: mid)).data (c.offset k) =
      (c.collect (List.range k ++ i :: mid)).data.length := by
    rw [PacketBuilder.find, List.findIdx_eq_length]
    intro b hb
    rw [hdata b hb, c.offset_toNat (by omega), hstart, hv, decide_eq_false_iff_not]
    split
    · rename_i h0
      rw [h0]
      decide
    · rename_i h0
      exact fun h => h0 h.symm
  refine ⟨c, painted_sizes, fun heq => ?_⟩
  have hfront : ∀ j < Fragments.start c.parts k + 1,
      (c.collect ((List.range k ++ i :: mid) ++ [k])).data[j]? = some v := by
    intro j hj
    rw [collect_concat]
    simp only [PacketBuilder.addData, hsearch, List.take_length, List.append_assoc]
    rw [List.getElem?_append_left (by omega), List.getElem?_eq_getElem (by omega),
      hdata _ (List.getElem_mem (by omega))]
  have hkept := collect_keeps_front post hfront
    (fun j hj => hfill j fun h => hpost (h ▸ hj)) _ (Nat.lt_succ_self _)
  rw [← hsplit, heq, hc, painted_raw_start hk, if_pos rfl] at hkept
  exact hv2 (Option.some.inj hkept).symm

/-- A second part whose offset is a byte value can be misplaced even in order. -/
private theorem exists_misplaced_of_narrow {s0 s1 : ℕ} {rest : List ℕ} (hs0 : s0 < 256)
    (hne : s0 :: s1 :: rest ≠ []) (hpos : ∀ s ∈ s0 :: s1 :: rest, 0 < s)
    (hsize : (s0 :: s1 :: rest).sum ≤ 65535) :
    ∃ c : CutPacket, c.sizes = s0 :: s1 :: rest ∧
      (c.collect (List.range (s0 :: s1 :: rest).length)).data ≠ c.raw := by
  have h0 : 0 < s0 := hpos s0 (by simp)
  have h1 : 0 < s1 := hpos s1 (by simp)
  set v : UByte := UInt8.ofNat s0 with hv
  have hvw : v ≠ v + 1 := by
    intro h
    have := congrArg UInt8.toNat h
    rw [UInt8.toNat_add] at this
    have := v.toNat_lt
    simp at *
  set c := painted (s0 :: s1 :: rest) (fun j => if j = 0 then v else v + 1) hne hpos hsize with hc
  have hp0 : c.parts.getD 0 [] = List.replicate s0 v := painted_getD (i := 0) (by simp)
  have hp1 : c.parts.getD 1 [] = List.replicate s1 (v + 1) := painted_getD (i := 1) (by simp)
  have hfirst : (c.collect [0]).data = List.replicate s0 v := by
    rw [show [0] = [] ++ [0] from rfl, collect_concat, hp0]
    change [] ++ List.replicate s0 v ++ [] = _
    simp
  have hoffset : (c.offset 1).toNat = s0 := by
    rw [c.offset_toNat (by rw [hc]; simp)]
    simp [Fragments.start, hc, painted]
  have hsearch : PacketBuilder.find (c.collect [0]).data (c.offset 1) = 0 := by
    obtain ⟨t, rfl⟩ := Nat.exists_eq_succ_of_ne_zero (Nat.pos_iff_ne_zero.mp h0)
    rw [hfirst, PacketBuilder.find, List.replicate_succ, List.findIdx_cons, hoffset, hv]
    have hvalue : (UInt8.ofNat t.succ).toNat = t.succ := by simp; omega
    rw [hvalue, decide_eq_true rfl, cond_true]
  have hfront : ∀ j < 1, (c.collect ([0] ++ [1])).data[j]? = some (v + 1) := by
    intro j hj
    obtain rfl : j = 0 := by omega
    rw [collect_concat]
    simp only [PacketBuilder.addData, hsearch, hp1, List.take_zero, List.nil_append]
    rw [List.getElem?_append_left (by simpa using h1), List.getElem?_replicate, if_pos h1]
  have hrange : List.range (s0 :: s1 :: rest).length =
      [0] ++ [1] ++ (List.range rest.length).map (· + 2) := by
    simp only [List.length_cons, List.range_succ_eq_map, List.map_cons, List.map_map]
    rfl
  refine ⟨c, painted_sizes, fun heq => ?_⟩
  have hkept := collect_keeps_front ((List.range rest.length).map (· + 2)) hfront
    (by
      intro j hj b hb
      obtain ⟨j, -, rfl⟩ := List.mem_map.mp hj
      have := painted_part _ b hb
      rwa [if_neg (by omega)] at this) 0 (by omega)
  have hraw : (painted _ (fun j => if j = 0 then v else v + 1) hne hpos hsize).raw[_]? = some _ :=
    painted_raw_start (i := 0) (by simp)
  rw [← hrange, heq, hc] at hkept
  change _ = some v at hraw
  change (painted _ _ hne hpos hsize).raw[0]? = some v at hraw
  rw [hkept] at hraw
  exact hvw (Option.some.inj hraw).symm

end Painted

/-- An order that is not the increasing one departs from it at a first position. -/
private theorem exists_first_departure {order : List ℕ} {n : ℕ}
    (hperm : order.Perm (List.range n)) (hne : order ≠ List.range n) :
    ∃ k i mid post, order = List.range k ++ i :: (mid ++ k :: post) := by
  have hlen : order.length = n := by rw [hperm.length_eq, List.length_range]
  have hex : ∃ k, k < n ∧ order[k]? ≠ some k := by
    by_contra hall
    push Not at hall
    refine hne (List.ext_getElem? fun k => ?_)
    by_cases hk : k < n
    · rw [hall k hk, List.getElem?_range hk]
    · rw [List.getElem?_eq_none (by omega), List.getElem?_eq_none (by simpa using hk)]
  obtain ⟨⟨hk, hdiff⟩, hmin⟩ := Nat.find_spec hex, fun j => Nat.find_min (H := hex) (m := j)
  set k := Nat.find hex
  have htake : order.take k = List.range k := by
    refine List.ext_getElem? fun j => ?_
    by_cases hj : j < k
    · have := hmin j hj
      rw [List.getElem?_take_of_lt hj, List.getElem?_range hj]
      by_contra hne'
      exact this ⟨by omega, hne'⟩
    · rw [List.getElem?_eq_none (by simp; omega), List.getElem?_eq_none (by simpa using hj)]
  have hmem : k ∈ order := hperm.mem_iff.mpr (List.mem_range.mpr hk)
  have hdrop : order.drop k = order[k] :: order.drop (k + 1) := List.drop_eq_getElem_cons (by omega)
  have hlate : k ∈ order.drop (k + 1) := by
    rw [← List.take_append_drop k order, htake, hdrop] at hmem
    rcases List.mem_append.mp hmem with h | h
    · exact absurd (List.mem_range.mp h) (lt_irrefl k)
    · rcases List.mem_cons.mp h with h | h
      · rw [List.getElem?_eq_getElem (by omega)] at hdiff
        exact absurd (congrArg some h.symm) hdiff
      · exact h
  obtain ⟨mid, post, hsplit⟩ := List.append_of_mem hlate
  exact ⟨k, order[k], mid, post, by rw [← hsplit, ← hdrop, ← htake, List.take_append_drop]⟩

end CutPacket

open CutPacket

/-- A delivery is correct for every content exactly when it is in order and beyond the values of
a byte; and it is correct for one content whenever all its searches hit. -/
theorem reassembly_of_every_content (m : QVPNPacketManager) (id : UByte)
    (hid : m.packets id = none) :
    (∀ sizes order : List ℕ, sizes ≠ [] → (∀ s ∈ sizes, 0 < s) → sizes.sum ≤ 65535 →
      order.Perm (List.range sizes.length) →
      ((∀ c : CutPacket, c.sizes = sizes → c.Reassembles m id order) ↔
        SafeDelivery sizes order)) ∧
      ∀ (c : CutPacket) (order : List ℕ), order.Perm (List.range c.parts.length) →
        c.SearchHits order → c.Reassembles m id order := by
  refine ⟨fun sizes order hne hpos hsize hperm => ?_,
    fun c order hperm hhits => reassembles_of_searchHits hid hperm hhits⟩
  constructor
  · intro hall
    have hdata : ∀ c : CutPacket, c.sizes = sizes → (c.collect order).data = c.raw := by
      intro c hc
      have hcount : c.parts.length = sizes.length := by rw [← hc]; simp [CutPacket.sizes]
      exact (reassembles_iff hid (by rwa [hcount])).mp (hall c hc)
    by_contra hunsafe
    by_cases hrange : order = List.range sizes.length
    · match sizes, hne, hpos, hsize, hrange, hunsafe, hdata with
      | [s0], _, _, _, hrange, hunsafe, _ => exact hunsafe ⟨hrange, Or.inl rfl⟩
      | s0 :: s1 :: rest, hne, hpos, hsize, hrange, hunsafe, hdata =>
        have hs0 : s0 < 256 := by
          by_contra hge
          exact hunsafe ⟨hrange, Or.inr (by simpa using hge)⟩
        obtain ⟨c, hc, hbad⟩ := exists_misplaced_of_narrow hs0 hne hpos hsize
        exact hbad (hrange ▸ hdata c hc)
    · obtain ⟨k, i, mid, post, rfl⟩ := exists_first_departure hperm hrange
      obtain ⟨c, hc, hbad⟩ := exists_misplaced_of_late hperm hne hpos hsize
      exact hbad (hdata c hc)
  · intro hsafe c hc
    subst hc
    have hcount : c.sizes.length = c.parts.length := by simp [CutPacket.sizes]
    rw [hcount] at hperm
    exact reassembles_of_searchHits hid hperm (searchHits_of_safeDelivery hsafe)

/-- Four bytes cut into two halves. -/
def twoHalves : CutPacket where
  parts := [[10, 20], [30, 40]]
  parts_ne := by decide
  part_ne := by decide
  size_le := by decide

/-- Both halves of the result, at a shape and at a content. -/
theorem reassembly_of_every_content_twoHalves :
    ((∀ c : CutPacket, c.sizes = [256, 4] →
      c.Reassembles (initial .increasing) 7 [0, 1]) ↔ SafeDelivery [256, 4] [0, 1]) ∧
      twoHalves.Reassembles (initial .increasing) 7 [0, 1] :=
  ⟨(reassembly_of_every_content (initial .increasing) 7 rfl).1 [256, 4] [0, 1] (by decide)
      (by decide) (by decide) (List.Perm.refl _),
    (reassembly_of_every_content (initial .increasing) 7 rfl).2 twoHalves [0, 1]
      (List.Perm.refl _) (by
        intro k hk i hi
        have hk2 : k = 0 ∨ k = 1 := by simp at hk; omega
        rcases hk2 with rfl | rfl <;> (obtain rfl := Option.some.inj hi; rfl))⟩

/-- With the second half first, the halves come out exchanged. -/
theorem twoHalves_reversed_not_reassembled :
    ¬ twoHalves.Reassembles (initial .increasing) 7 [1, 0] := by
  rintro ⟨-, ⟨pb, hpb, -, hdata⟩, -⟩
  have hbuilt : (twoHalves.deliver (initial .increasing) 7 [1, 0]).packets 7 =
      some ⟨4, [30, 40, 10, 20], true⟩ := rfl
  rw [hbuilt] at hpb
  obtain rfl := Option.some.inj hpb
  revert hdata
  decide

end QVPN
