import Mathlib.Data.List.Basic
import Mathlib.Data.List.TakeDrop
import Mathlib.Data.Int.Notation

/-!
# Checked memory accesses

A buffer is the list of its elements. Reading an element, forming the range between two
positions and erasing a prefix are partial: an access outside the buffer, or a range whose
end precedes its begin, is a fault instead of a value. A program written over these
accesses returns `ok` exactly when every access it makes is legal.
-/

namespace Memory

universe u

variable {α β : Type u}

/-- The ways in which running code can fail to produce a result. -/
inductive Fault where
  | outOfBounds
  | invalidRange
  | divisionByZero
  | noReturn
  deriving DecidableEq, Repr

/-- The element at a position, a fault outside the buffer. -/
def readAt (xs : List α) (i : ℕ) : Except Fault α :=
  match xs[i]? with
  | some x => .ok x
  | none => .error .outOfBounds

/-- The elements of the range `[b, e)`, a fault unless it is a range of the buffer. -/
def slice (xs : List α) (b e : ℤ) : Except Fault (List α) :=
  if 0 ≤ b ∧ e ≤ xs.length then
    if b ≤ e then .ok ((xs.drop b.toNat).take (e - b).toNat) else .error .invalidRange
  else .error .outOfBounds

/-- What is left after erasing the first `n` elements, a fault if there are fewer. -/
def eraseFront (xs : List α) (n : ℕ) : Except Fault (List α) :=
  if n ≤ xs.length then .ok (xs.drop n) else .error .outOfBounds

/-- The buffer with one element replaced, a fault outside the buffer. -/
def writeAt (xs : List α) (i : ℕ) (x : α) : Except Fault (List α) :=
  if i < xs.length then .ok (xs.set i x) else .error .outOfBounds

/-- The buffer with a copy written over it from a position on, a fault if it does not fit. -/
def overwrite (xs : List α) (i : ℕ) (ys : List α) : Except Fault (List α) :=
  if i + ys.length ≤ xs.length then .ok (xs.take i ++ ys ++ xs.drop (i + ys.length))
  else .error .outOfBounds

/-- Reading succeeds at the positions of the buffer. -/
theorem readAt_eq_ok_iff {xs : List α} {i : ℕ} {x : α} :
    readAt xs i = .ok x ↔ xs[i]? = some x := by
  unfold readAt
  cases xs[i]? <;> simp

@[simp] theorem readAt_cons_zero (x : α) (xs : List α) : readAt (x :: xs) 0 = .ok x := rfl

@[simp] theorem readAt_cons_succ (x : α) (xs : List α) (i : ℕ) :
    readAt (x :: xs) (i + 1) = readAt xs i := rfl

/-- A prefix has the elements of the list. -/
theorem getD_take {i n : ℕ} (h : i < n) (xs : List α) (d : α) :
    (xs.take n).getD i d = xs.getD i d := by
  rw [List.getD_eq_getElem?_getD, List.getD_eq_getElem?_getD, List.getElem?_take_of_lt h]

/-- Reading past a prefix reads the rest at the remaining distance. -/
theorem readAt_append_right (xs ys : List α) (i : ℕ) :
    readAt (xs ++ ys) (xs.length + i) = readAt ys i := by
  simp [readAt, List.getElem?_append_right]

/-- The element behind a prefix. -/
theorem readAt_split {mem : List α} {x : α} {i : ℕ} (pre rest : List α)
    (hmem : mem = pre ++ x :: rest) (hi : i = pre.length) : readAt mem i = .ok x := by
  have h := readAt_append_right pre (x :: rest) 0
  rw [hmem, hi]
  simpa using h

/-- Reading inside a prefix does not see what follows it. -/
theorem readAt_append_left {xs ys : List α} {i : ℕ} (h : i < xs.length) :
    readAt (xs ++ ys) i = readAt xs i := by
  simp [readAt, List.getElem?_append_left h]

/-- The middle part of a buffer is the range at its offset. -/
theorem slice_append (xs ys zs : List α) (b e : ℤ) (hb : b = xs.length)
    (he : e = xs.length + ys.length) : slice (xs ++ ys ++ zs) b e = .ok ys := by
  have hcut : ((xs ++ ys ++ zs).drop b.toNat).take (e - b).toNat = ys := by
    rw [show b.toNat = xs.length by omega, show (e - b).toNat = ys.length by omega,
      List.append_assoc, List.drop_left, List.take_left]
  have hlen : e ≤ (xs ++ ys ++ zs).length := by
    simp only [List.length_append]
    omega
  rw [slice, if_pos ⟨by omega, hlen⟩, if_pos (by omega), hcut]

/-- The part behind two other parts. -/
theorem slice_append_append (ws xs ys zs : List α) (b e : ℤ) (hb : b = ws.length + xs.length)
    (he : e = b + ys.length) : slice (ws ++ (xs ++ (ys ++ zs))) b e = .ok ys := by
  have hlength : ((ws ++ xs).length : ℤ) = b := by
    rw [hb, List.length_append, Int.natCast_add]
  rw [← List.append_assoc, ← List.append_assoc]
  exact slice_append _ ys zs b e hlength.symm (by rw [hlength, he])

/-- The range that starts after a prefix and ends with the buffer is the rest. -/
theorem slice_suffix (xs ys : List α) (b e : ℤ) (hb : b = xs.length)
    (he : e = xs.length + ys.length) : slice (xs ++ ys) b e = .ok ys := by
  simpa using slice_append xs ys [] b e hb he

/-- The range that starts with the buffer is its prefix. -/
theorem slice_prefix (xs ys : List α) (e : ℤ) (he : e = xs.length) :
    slice (xs ++ ys) 0 e = .ok xs := by
  simpa using slice_append [] xs ys 0 e rfl (by simpa using he)

/-- A range behind a prefix is a range of what follows the prefix. -/
theorem slice_behind (xs ys : List α) {b e size : ℤ} (hb : b = xs.length)
    (he : e = xs.length + size) : slice (xs ++ ys) b e = slice ys 0 size := by
  have hcut : ((xs ++ ys).drop b.toNat).take (e - b).toNat = (ys.drop 0).take (size - 0).toNat := by
    rw [show b.toNat = xs.length by omega, show e - b = size by omega, List.drop_left, Int.sub_zero,
      List.drop_zero]
  have hlength : (xs ++ ys).length = xs.length + ys.length := List.length_append
  have hmem : (0 ≤ b ∧ e ≤ (xs ++ ys).length) ↔ (0 : ℤ) ≤ 0 ∧ size ≤ ys.length := by omega
  have horder : b ≤ e ↔ 0 ≤ size := by omega
  rw [slice, slice, hcut, ite_congr (propext hmem) (fun _ => rfl) (fun _ => rfl),
    ite_congr (propext horder) (fun _ => rfl) (fun _ => rfl)]
  rfl

/-- The whole buffer is one of its ranges. -/
theorem slice_all (xs : List α) (e : ℤ) (he : e = xs.length) : slice xs 0 e = .ok xs := by
  simpa using slice_prefix xs [] e he

/-- The front of a prefix. -/
theorem slice_take {xs : List α} {n : ℕ} (h : n ≤ xs.length) (ys : List α) {e : ℤ} (he : e = n) :
    slice (xs ++ ys) 0 e = .ok (xs.take n) := by
  have hsplit : xs ++ ys = xs.take n ++ (xs.drop n ++ ys) := by
    rw [← List.append_assoc, List.take_append_drop]
  rw [hsplit]
  exact slice_prefix _ _ _ (by rw [he, List.length_take_of_le h])

/-- What a prefix has behind its front. -/
theorem slice_drop {xs : List α} {n : ℕ} (h : n ≤ xs.length) (ys : List α) {b e : ℤ}
    (hb : b = n) (he : e = xs.length) : slice (xs ++ ys) b e = .ok (xs.drop n) := by
  have hfront : (xs.take n).length = n := List.length_take_of_le h
  have hsplit : xs ++ ys = xs.take n ++ xs.drop n ++ ys := by
    rw [List.take_append_drop]
  rw [hsplit]
  exact slice_append _ _ _ _ _ (by rw [hb, hfront]) (by rw [he, hfront, List.length_drop]; omega)

/-- A range of a prefix is the range of the whole. -/
theorem slice_take_of_le (xs : List α) {b e : ℤ} {n : ℕ} (hn : n ≤ xs.length) (he : e ≤ n) :
    slice (xs.take n) b e = slice xs b e := by
  unfold slice
  rw [List.length_take_of_le hn]
  by_cases hb : 0 ≤ b
  · have hfront : 0 ≤ b ∧ e ≤ (n : ℤ) := ⟨hb, he⟩
    have hwhole : 0 ≤ b ∧ e ≤ (xs.length : ℤ) := ⟨hb, by omega⟩
    rw [if_pos hfront, if_pos hwhole]
    split
    · rw [List.drop_take, List.take_take, Nat.min_eq_left (by omega)]
    · rfl
  · rw [if_neg fun h => hb h.1, if_neg fun h => hb h.1]

/-- A successful range has the distance of its ends as its length. -/
theorem slice_length {xs ys : List α} {b e : ℤ} (h : slice xs b e = .ok ys) :
    (ys.length : ℤ) = e - b := by
  unfold slice at h
  split at h
  · split at h
    · cases h
      simp only [List.length_take, List.length_drop]
      omega
    · cases h
  · cases h

/-- A range is defined exactly when its ends are ordered positions of the buffer. -/
theorem slice_eq_ok_iff {xs ys : List α} {b e : ℤ} :
    slice xs b e = .ok ys ↔
      0 ≤ b ∧ b ≤ e ∧ e ≤ xs.length ∧ ys = (xs.drop b.toNat).take (e - b).toNat := by
  unfold slice
  split
  · split
    · simp only [Except.ok.injEq]
      constructor
      · intro hys
        exact ⟨by omega, by omega, by omega, hys.symm⟩
      · rintro ⟨-, -, -, rfl⟩
        rfl
    · simp only [reduceCtorEq, false_iff]
      omega
  · simp only [reduceCtorEq, false_iff]
    omega

/-- Between natural positions only their order and the end of the buffer matter. -/
theorem slice_natCast_eq_ok_iff {xs ys : List α} {b e : ℕ} :
    slice xs b e = .ok ys ↔ b ≤ e ∧ e ≤ xs.length ∧ ys = (xs.drop b).take (e - b) := by
  rw [slice_eq_ok_iff, Int.toNat_natCast, Int.toNat_sub]
  simp only [Int.natCast_nonneg, true_and, Int.ofNat_le]

/-- What is read at a position comes first from there on. -/
theorem drop_of_readAt {xs : List α} {i : ℕ} {x : α} (h : readAt xs i = .ok x) :
    xs.drop i = x :: xs.drop (i + 1) := by
  obtain ⟨hlt, rfl⟩ := List.getElem?_eq_some_iff.mp (readAt_eq_ok_iff.mp h)
  exact List.drop_eq_getElem_cons hlt

/-- A range comes first from its begin on. -/
theorem drop_of_slice {xs ys : List α} {b e : ℕ} (h : slice xs b e = .ok ys) :
    xs.drop b = ys ++ xs.drop e := by
  obtain ⟨hbe, -, rfl⟩ := slice_natCast_eq_ok_iff.mp h
  have hrest : xs.drop e = (xs.drop b).drop (e - b) := by
    rw [List.drop_drop, Nat.add_sub_cancel' hbe]
  rw [hrest, List.take_append_drop]

/-- What comes behind what comes first. -/
theorem drop_behind {xs ys zs : List α} {i n : ℕ} (h : xs.drop i = ys ++ zs) (hn : n = ys.length) :
    xs.drop (i + n) = zs := by
  rw [← List.drop_drop, h, hn, List.drop_left]

/-- Erasing is defined exactly when there is enough to erase. -/
theorem eraseFront_eq_ok_iff {xs ys : List α} {n : ℕ} :
    eraseFront xs n = .ok ys ↔ n ≤ xs.length ∧ ys = xs.drop n := by
  unfold eraseFront
  split
  · next h => simp [h, eq_comm]
  · next h => simp [h]

/-- Every position of the buffer can be read. -/
theorem readAt_of_lt {xs : List α} {i : ℕ} (h : i < xs.length) : ∃ x, readAt xs i = .ok x :=
  ⟨xs[i], readAt_eq_ok_iff.mpr (List.getElem?_eq_getElem h)⟩

/-- Every range of the buffer can be formed. -/
theorem slice_of_le (xs : List α) {b e : ℤ} (hb : 0 ≤ b) (hbe : b ≤ e) (he : e ≤ xs.length) :
    ∃ ys, slice xs b e = .ok ys :=
  ⟨_, slice_eq_ok_iff.mpr ⟨hb, hbe, he, rfl⟩⟩

/-- What is read in a prefix is read in the whole buffer. -/
theorem readAt_of_prefix {xs : List α} {i : ℕ} {x : α} (h : readAt xs i = .ok x) (ys : List α) :
    readAt (xs ++ ys) i = .ok x := by
  rw [readAt_eq_ok_iff] at h ⊢
  rw [List.getElem?_append_left (List.getElem?_eq_some_iff.mp h).1, h]

/-- The element read inside the buffer. -/
theorem readAt_getD {xs : List α} {i : ℕ} (h : i < xs.length) (d : α) :
    readAt xs i = .ok (xs.getD i d) := by
  rw [readAt_eq_ok_iff, List.getD_eq_getElem?_getD, List.getElem?_eq_getElem h, Option.getD_some]

/-- An element that has been read is inside the buffer. -/
theorem lt_of_readAt {xs : List α} {i : ℕ} {x : α} (h : readAt xs i = .ok x) : i < xs.length :=
  (List.getElem?_eq_some_iff.mp (readAt_eq_ok_iff.mp h)).1

/-- What has been read is the element at its position. -/
theorem getD_of_readAt {xs : List α} {i : ℕ} {x : α} (h : readAt xs i = .ok x) (d : α) :
    xs.getD i d = x := by
  rw [List.getD_eq_getElem?_getD, readAt_eq_ok_iff.mp h, Option.getD_some]

/-- The element read inside a prefix. -/
theorem readAt_append_getD {xs : List α} {i : ℕ} (h : i < xs.length) (d : α) (ys : List α) :
    readAt (xs ++ ys) i = .ok (xs.getD i d) := by
  rw [readAt_append_left h, readAt_getD h d]

/-- A range of a prefix is a range of the whole buffer. -/
theorem slice_of_prefix {xs zs : List α} {b e : ℤ} (h : slice xs b e = .ok zs) (ys : List α) :
    slice (xs ++ ys) b e = .ok zs := by
  obtain ⟨hb, hbe, he, hzs⟩ := slice_eq_ok_iff.mp h
  have hlen : (xs ++ ys).length = xs.length + ys.length := List.length_append
  refine slice_eq_ok_iff.mpr ⟨hb, hbe, by omega, ?_⟩
  rw [hzs, List.drop_append_of_le_length (by omega), List.take_append_of_le_length]
  rw [List.length_drop]
  omega

/-- Fallible functions that agree on the elements of a list map it alike. -/
theorem mapM_congr {xs : List α} {f g : α → Except Fault β} (h : ∀ x ∈ xs, f x = g x) :
    xs.mapM f = xs.mapM g := by
  induction xs with
  | nil => rfl
  | cons x xs ih =>
    rw [List.mapM_cons, List.mapM_cons, h x List.mem_cons_self,
      ih (fun y hy => h y (List.mem_cons_of_mem x hy))]

/-- Reading all elements by their positions visits them in order. -/
theorem mapM_range_readAt (xs : List α) (f : α → Except Fault β) :
    (List.range xs.length).mapM (fun i => readAt xs i >>= f) = xs.mapM f := by
  induction xs with
  | nil => rfl
  | cons x xs ih =>
    rw [List.length_cons, List.range_succ_eq_map, List.mapM_cons, List.mapM_cons, List.mapM_map]
    have htail : ((fun i => readAt (x :: xs) i >>= f) ∘ Nat.succ) = fun i => readAt xs i >>= f := rfl
    rw [htail, ih]
    rfl

@[simp] theorem eraseFront_append (xs ys : List α) (n : ℕ) (h : n = xs.length) :
    eraseFront (xs ++ ys) n = .ok ys := by
  subst h
  simp [eraseFront]

/-- A copy of the same length takes the place of a part. -/
theorem overwrite_append (xs old new zs : List α) {i : ℕ} (hi : i = xs.length)
    (hlength : new.length = old.length) :
    overwrite (xs ++ old ++ zs) i new = .ok (xs ++ new ++ zs) := by
  have hcut : xs.length + new.length = (xs ++ old).length := by
    rw [hlength, List.length_append]
  have hfits : xs.length + new.length ≤ (xs ++ old ++ zs).length := by
    simp only [List.length_append, hlength]
    omega
  rw [hi, overwrite, if_pos hfits, hcut, List.drop_left, List.append_assoc xs old, List.take_left]

theorem overwrite_length {xs ys zs : List α} {i : ℕ} (h : overwrite xs i ys = .ok zs) :
    zs.length = xs.length := by
  unfold overwrite at h
  split at h
  · cases Except.ok.inj h
    simp only [List.length_append, List.length_take, List.length_drop]
    omega
  · cases h

theorem overwrite_fits {xs ys zs : List α} {i : ℕ} (h : overwrite xs i ys = .ok zs) :
    i + ys.length ≤ xs.length := by
  unfold overwrite at h
  split at h
  · assumption
  · cases h

/-- What is erased and what is left make up the buffer. -/
theorem eraseFront_length {xs ys : List α} {n : ℕ} (h : eraseFront xs n = .ok ys) :
    n + ys.length = xs.length := by
  unfold eraseFront at h
  split at h
  · cases h
    rw [List.length_drop]
    omega
  · cases h

/-- Binding on an error is the error. -/
@[simp] theorem error_bind {ε : Type*} (e : ε) (f : α → Except ε β) :
    (Except.error e >>= f) = .error e := rfl

/-- Binding on a value runs the continuation. -/
@[simp] theorem ok_bind {ε : Type*} (x : α) (f : α → Except ε β) : (Except.ok x >>= f) = f x := rfl

/-- A sequence produces a result only through results of both its parts. -/
theorem bind_eq_ok_iff {ε : Type*} {x : Except ε α} {f : α → Except ε β} {b : β} :
    (x >>= f) = .ok b ↔ ∃ a, x = .ok a ∧ f a = .ok b := by
  cases x <;> simp

/-- A mapped program produces the images of its results. -/
theorem map_eq_ok_iff {x : Except Fault α} {f : α → β} {b : β} :
    f <$> x = .ok b ↔ ∃ a, x = .ok a ∧ f a = b := by
  cases x <;> simp [Functor.map, Except.map]

/-- A successful pass over a list yields one result for each element. -/
theorem mapM_length {xs : List α} {ys : List β} {f : α → Except Fault β}
    (h : xs.mapM f = .ok ys) : ys.length = xs.length := by
  induction xs generalizing ys with
  | nil =>
    cases Except.ok.inj h
    rfl
  | cons x xs ih =>
    rw [List.mapM_cons] at h
    obtain ⟨y, -, h⟩ := bind_eq_ok_iff.mp h
    obtain ⟨zs, hzs, h⟩ := bind_eq_ok_iff.mp h
    cases Except.ok.inj h
    rw [List.length_cons, List.length_cons, ih hzs]

/-- A successful pass over a list yields at every position the result for the element there. -/
theorem mapM_getElem? {xs : List α} {ys : List β} {f : α → Except Fault β}
    (h : xs.mapM f = .ok ys) {i : ℕ} {x : α} (hx : xs[i]? = some x) :
    ∃ y, ys[i]? = some y ∧ f x = .ok y := by
  induction xs generalizing ys i with
  | nil => cases hx
  | cons x' xs ih =>
    rw [List.mapM_cons] at h
    obtain ⟨y, hy, h⟩ := bind_eq_ok_iff.mp h
    obtain ⟨zs, hzs, h⟩ := bind_eq_ok_iff.mp h
    cases Except.ok.inj h
    cases i with
    | zero =>
      rw [List.getElem?_cons_zero] at hx
      cases hx
      exact ⟨y, rfl, hy⟩
    | succ i => exact ih hzs hx

/-- All accesses of a program are legal: it returns a value. -/
def Legal (x : Except Fault α) : Prop := ∃ a, x = .ok a

@[simp] theorem legal_ok (x : α) : Legal (.ok x : Except Fault α) := ⟨x, rfl⟩

@[simp] theorem not_legal_error (e : Fault) : ¬Legal (.error e : Except Fault α) := by
  rintro ⟨a, h⟩
  cases h

/-- What follows a read runs on the element read. -/
theorem legal_readAt_bind {xs : List α} {i : ℕ} {f : α → Except Fault β} (d : α) :
    Legal (readAt xs i >>= f) ↔ i < xs.length ∧ Legal (f (xs.getD i d)) := by
  by_cases h : i < xs.length
  · have hread : readAt xs i = .ok (xs.getD i d) :=
      readAt_eq_ok_iff.mpr (by simp [List.getD, h])
    rw [hread, ok_bind]
    simp [h]
  · have hread : readAt xs i = .error .outOfBounds := by
      rw [readAt, List.getElem?_eq_none (by omega)]
    rw [hread, error_bind]
    simp [h]

/-- What follows an erasure runs on what is left. -/
theorem legal_eraseFront_bind {xs : List α} {n : ℕ} {f : List α → Except Fault β} :
    Legal (eraseFront xs n >>= f) ↔ n ≤ xs.length ∧ Legal (f (xs.drop n)) := by
  unfold eraseFront
  split
  · simp [*]
  · simp [*]

/-- What follows the forming of a range runs on its elements. -/
theorem legal_slice_bind {xs : List α} {b e : ℤ} {f : List α → Except Fault β} :
    Legal (slice xs b e >>= f) ↔
      (0 ≤ b ∧ b ≤ e ∧ e ≤ xs.length) ∧ Legal (f ((xs.drop b.toNat).take (e - b).toNat)) := by
  by_cases h : 0 ≤ b ∧ b ≤ e ∧ e ≤ xs.length
  · rw [slice_eq_ok_iff.mpr ⟨h.1, h.2.1, h.2.2, rfl⟩, ok_bind]
    simp [h]
  · have hnone : ∀ ys, slice xs b e ≠ .ok ys := fun ys hys =>
      h ⟨(slice_eq_ok_iff.mp hys).1, (slice_eq_ok_iff.mp hys).2.1, (slice_eq_ok_iff.mp hys).2.2.1⟩
    cases hslice : slice xs b e with
    | ok ys => exact absurd hslice (hnone ys)
    | error fault =>
      rw [error_bind]
      simp [h]

end Memory
