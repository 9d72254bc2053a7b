import QVPN.Lib.BigEndian

/-!
# Programs over a buffer and over a longer one

A program that accesses a buffer only in its front does the same when more elements follow the
buffer. Two programs agree when both return, and the same; reading programs agree over a buffer
and over a continuation of it. A program that edits the front of a buffer returns the same
edited front whatever follows.
-/

namespace Memory

universe u

variable {α β : Type u}

/-- Both programs return, and the same. -/
def Agree (x y : Except Fault α) : Prop := ∃ a, x = .ok a ∧ y = .ok a

theorem Agree.ok (a : α) : Agree (.ok a) (.ok a) := ⟨a, rfl, rfl⟩

/-- What agrees and returns a value returns that value twice. -/
theorem Agree.values {x y : Except Fault α} {a b : α} (h : Agree x y) (hx : x = .ok a)
    (hy : y = .ok b) : a = b := by
  obtain ⟨c, hxc, hyc⟩ := h
  rw [← Except.ok.inj (hxc.symm.trans hx), Except.ok.inj (hyc.symm.trans hy)]

/-- Agreement goes through what is done with the common value. -/
theorem Agree.bind {x y : Except Fault α} {f g : α → Except Fault β} (h : Agree x y)
    (hfg : ∀ a, Agree (f a) (g a)) : Agree (x >>= f) (y >>= g) := by
  obtain ⟨a, rfl, rfl⟩ := h
  exact hfg a

/-- Agreement goes through a function of the common value. -/
theorem Agree.map {x y : Except Fault α} (h : Agree x y) (f : α → β) :
    Agree (x >>= fun a => pure (f a)) (y >>= fun a => pure (f a)) :=
  h.bind fun a => .ok (f a)

theorem agree_readAt {xs : List α} {i : ℕ} (h : i < xs.length) (ys : List α) :
    Agree (readAt xs i) (readAt (xs ++ ys) i) := by
  obtain ⟨x, hx⟩ := readAt_of_lt h
  exact ⟨x, hx, readAt_of_prefix hx ys⟩

theorem agree_slice {xs : List α} {b e : ℤ} (hb : 0 ≤ b) (hbe : b ≤ e) (he : e ≤ xs.length)
    (ys : List α) : Agree (slice xs b e) (slice (xs ++ ys) b e) := by
  obtain ⟨zs, hzs⟩ := slice_of_le xs hb hbe he
  exact ⟨zs, hzs, slice_of_prefix hzs ys⟩

/-- Overwriting changes no element outside what is written. -/
theorem overwrite_getD {xs ys zs : List α} {i j : ℕ} (h : overwrite xs i ys = .ok zs)
    (hj : j < i ∨ i + ys.length ≤ j) (d : α) : zs.getD j d = xs.getD j d := by
  have hfits := overwrite_fits h
  have hfront : (xs.take i).length = i := List.length_take_of_le (by omega)
  unfold overwrite at h
  rw [if_pos hfits] at h
  cases Except.ok.inj h
  rw [List.getD_eq_getElem?_getD, List.getD_eq_getElem?_getD]
  rcases hj with hj | hj
  · rw [List.append_assoc, List.getElem?_append_left (by omega), List.getElem?_take_of_lt hj]
  · have hwritten : (xs.take i ++ ys).length = i + ys.length := by
      rw [List.length_append, hfront]
    rw [List.getElem?_append_right (by omega), hwritten, List.getElem?_drop,
      Nat.add_sub_cancel' hj]

/-- An edit of the first `n` elements, which sees nothing behind the buffer. -/
def EditsFront (n : ℕ) (f : List α → Except Fault (List α)) : Prop :=
  ∀ xs ys, n ≤ xs.length →
    ∃ xs', f xs = .ok xs' ∧ f (xs ++ ys) = .ok (xs' ++ ys) ∧ xs'.length = xs.length

theorem editsFront_writeAt {i n : ℕ} (h : i < n) (x : α) : EditsFront n (writeAt · i x) := by
  intro xs ys hxs
  have hlen : (xs ++ ys).length = xs.length + ys.length := List.length_append
  refine ⟨xs.set i x, if_pos (by omega), ?_, List.length_set⟩
  dsimp only
  rw [writeAt, if_pos (by omega), List.set_append_left _ _ (by omega)]

/-- The written element stands at its place, the others are as before. -/
theorem writeAt_getD {xs ys : List α} {i : ℕ} {x : α} (h : writeAt xs i x = .ok ys) (j : ℕ) (d : α) :
    ys.getD j d = if j = i then x else xs.getD j d := by
  unfold writeAt at h
  split at h
  · next hi =>
    cases Except.ok.inj h
    rw [List.getD_eq_getElem?_getD, List.getElem?_set]
    by_cases hj : j = i
    · rw [if_pos hj.symm, if_pos (hj ▸ hi), if_pos hj, Option.getD_some]
    · rw [if_neg fun hij => hj hij.symm, if_neg hj, List.getD_eq_getElem?_getD]
  · cases h

/-- What is written may depend on what is read in front. -/
theorem EditsFront.readAt {i n : ℕ} (h : i < n) {f : α → List α → Except Fault (List α)}
    (hf : ∀ x, EditsFront n (f x)) : EditsFront n fun xs => Memory.readAt xs i >>= (f · xs) := by
  intro xs ys hxs
  obtain ⟨x, hx⟩ := readAt_of_lt (show i < xs.length by omega)
  dsimp only
  rw [hx, readAt_of_prefix hx]
  exact hf x xs ys hxs

/-- One edit after another. -/
theorem EditsFront.andThen {n : ℕ} {f g : List α → Except Fault (List α)} (hf : EditsFront n f)
    (hg : EditsFront n g) : EditsFront n fun xs => f xs >>= g := by
  intro xs ys hxs
  obtain ⟨xs', hfirst, hbehind, hlength⟩ := hf xs ys hxs
  obtain ⟨xs'', hsecond, hbehind', hlength'⟩ := hg xs' ys (by omega)
  dsimp only
  rw [hfirst, hbehind]
  exact ⟨xs'', hsecond, hbehind', by omega⟩

end Memory

namespace BigEndian

open Memory

theorem agree_read16 {mem : List UInt8} {i : ℕ} (h : i + 1 < mem.length) (rest : List UInt8) :
    Agree (read16 mem i) (read16 (mem ++ rest) i) :=
  (agree_readAt (by omega) rest).bind fun a => (agree_readAt h rest).map (join a)

theorem agree_read32 {mem : List UInt8} {i : ℕ} (h : i + 3 < mem.length) (rest : List UInt8) :
    Agree (read32 mem i) (read32 (mem ++ rest) i) :=
  (agree_readAt (by omega) rest).bind fun a => (agree_readAt (by omega) rest).bind fun b =>
    (agree_readAt (by omega) rest).bind fun c => (agree_readAt h rest).map (join32 a b c)

/-- Write a 32-bit word at a position of a buffer. -/
def write32 (mem : List UInt8) (i : ℕ) (v : UInt32) : Except Fault (List UInt8) :=
  overwrite mem i (bytes32 v)

theorem editsFront_write16 {i n : ℕ} (h : i + 1 < n) (v : UInt16) :
    EditsFront n (write16 · i v) := by
  intro mem rest hmem
  have hlen : (mem ++ rest).length = mem.length + rest.length := List.length_append
  refine ⟨_, if_pos (by omega), ?_, by rw [List.length_set, List.length_set]⟩
  dsimp only
  rw [write16, if_pos (by omega), List.set_append_left _ _ (by omega),
    List.set_append_left _ _ (by rw [List.length_set]; omega)]

theorem editsFront_write32 {i n : ℕ} (h : i + 3 < n) (v : UInt32) :
    EditsFront n (write32 · i v) := by
  intro mem rest hmem
  have hlen : (mem ++ rest).length = mem.length + rest.length := List.length_append
  have hfits : i + (bytes32 v).length ≤ mem.length := by
    rw [bytes32_length]
    omega
  refine ⟨_, if_pos hfits, ?_, overwrite_length (if_pos hfits)⟩
  dsimp only
  rw [write32, overwrite, if_pos (by omega), List.take_append_of_le_length (by omega),
    List.drop_append_of_le_length hfits, List.append_assoc (_ ++ _)]

/-- Writing a word changes no other element. -/
theorem write16_getD {mem mem' : List UInt8} {i j : ℕ} {v : UInt16} (h : write16 mem i v = .ok mem')
    (hj : j < i ∨ i + 1 < j) (d : UInt8) : mem'.getD j d = mem.getD j d := by
  unfold write16 at h
  split at h
  · cases Except.ok.inj h
    rw [List.getD_eq_getElem?_getD, List.getElem?_set_ne (by omega), List.getElem?_set_ne (by omega),
      List.getD_eq_getElem?_getD]
  · cases h

/-- Writing a double word changes no element behind it. -/
theorem write32_getD {mem mem' : List UInt8} {i j : ℕ} {v : UInt32} (h : write32 mem i v = .ok mem')
    (hj : i + 3 < j) (d : UInt8) : mem'.getD j d = mem.getD j d :=
  overwrite_getD h (.inr hj) d

end BigEndian
