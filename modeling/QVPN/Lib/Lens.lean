import QVPN.Lib.Agreement

/-!
# Setters of a field

A setter of a field is lawful in a state when the value comes back through the getter, nothing
outside the field changes, and an earlier set of the same field leaves no trace. In a byte buffer
the field is a mask for each byte. What a class does to the buffer it wraps is lawful exactly when
it is lawful for the buffer.
-/

namespace Lens

open BigEndian Memory

section Set

variable {α : Type*}

theorem getD_set_self {xs : List α} {i : ℕ} (h : i < xs.length) (x d : α) :
    (xs.set i x).getD i d = x := by
  rw [List.getD_eq_getElem?_getD, List.getElem?_set_self h, Option.getD_some]

theorem getD_set_ne {xs : List α} {i j : ℕ} (h : i ≠ j) (x d : α) :
    (xs.set i x).getD j d = xs.getD j d := by
  rw [List.getD_eq_getElem?_getD, List.getElem?_set_ne h, List.getD_eq_getElem?_getD]

theorem readAt_set_ne {xs : List α} {i j : ℕ} (h : i ≠ j) (x : α) :
    readAt (xs.set i x) j = readAt xs j := by
  rw [readAt, List.getElem?_set_ne h, readAt]

/-- Behind a front the positions are shifted. -/
theorem readAt_drop (xs : List α) (n i : ℕ) : readAt (xs.drop n) i = readAt xs (n + i) := by
  rw [readAt, List.getElem?_drop, readAt]

/-- An element set behind a front is set in the whole list. -/
theorem take_append_set (xs : List α) (n i : ℕ) (x : α) :
    xs.take n ++ (xs.drop n).set i x = xs.set (n + i) x := by
  rw [List.set_drop, ← List.take_set_of_le (Nat.le_add_right n i), List.take_append_drop]

end Set

section Lawful

variable {σ τ α : Type*}

/-- The value is read back, in a state that differs as the frame allows. -/
def Sets (get : σ → Except Fault α) (set : σ → α → Except Fault σ) (frame : σ → σ → Prop) (s : σ)
    (a : α) : Prop :=
  ∃ s', set s a = .ok s' ∧ get s' = .ok a ∧ frame s s'

/-- Both values can be set, and behind an earlier set the later one does what it does alone. -/
structure Lawful (get : σ → Except Fault α) (set : σ → α → Except Fault σ) (frame : σ → σ → Prop)
    (s : σ) (earlier later : α) : Prop where
  sets_earlier : Sets get set frame s earlier
  sets_later : Sets get set frame s later
  overrides : (set s earlier >>= (set · later)) = set s later

variable {get : σ → Except Fault α} {set : σ → α → Except Fault σ} {frame : σ → σ → Prop}
  {get' : τ → Except Fault α} {set' : τ → α → Except Fault τ} {frame' : τ → τ → Prop}

/-- A setter that works on what a state wraps sets the same values. -/
theorem sets_wrap {wrap : τ → σ} (hget : ∀ t, get (wrap t) = get' t)
    (hset : ∀ t a, set (wrap t) a = (set' t a).map wrap)
    (hframe : ∀ t t', frame (wrap t) (wrap t') ↔ frame' t t') (t : τ) (a : α) :
    Sets get set frame (wrap t) a ↔ Sets get' set' frame' t a := by
  constructor
  · rintro ⟨s', hs, hread, hkeep⟩
    rw [hset] at hs
    cases ht : set' t a with
    | error fault =>
      rw [ht] at hs
      cases hs
    | ok t' =>
      rw [ht] at hs
      cases Except.ok.inj hs
      exact ⟨t', ht, (hget t').symm.trans hread, (hframe t t').mp hkeep⟩
  · rintro ⟨t', ht, hread, hkeep⟩
    refine ⟨wrap t', ?_, (hget t').trans hread, (hframe t t').mpr hkeep⟩
    rw [hset, ht]
    rfl

/-- It is lawful exactly when the setter of what is wrapped is. -/
theorem lawful_wrap {wrap : τ → σ} (hinj : Function.Injective wrap)
    (hget : ∀ t, get (wrap t) = get' t) (hset : ∀ t a, set (wrap t) a = (set' t a).map wrap)
    (hframe : ∀ t t', frame (wrap t) (wrap t') ↔ frame' t t') (t : τ) (earlier later : α) :
    Lawful get set frame (wrap t) earlier later ↔ Lawful get' set' frame' t earlier later := by
  have hmap : Function.Injective (Except.map wrap : Except Fault τ → Except Fault σ) := by
    rintro (x | x) (y | y) hxy
    · exact congrArg Except.error (Except.error.inj hxy)
    · cases hxy
    · cases hxy
    · exact congrArg Except.ok (hinj (Except.ok.inj hxy))
  have hboth : (set (wrap t) earlier >>= (set · later)) =
      (set' t earlier >>= (set' · later)).map wrap := by
    rw [hset]
    cases set' t earlier with
    | error fault => rfl
    | ok t' => exact hset t' later
  constructor
  · intro h
    refine ⟨(sets_wrap hget hset hframe t _).mp h.sets_earlier,
      (sets_wrap hget hset hframe t _).mp h.sets_later, hmap ?_⟩
    rw [← hboth, h.overrides, hset]
  · intro h
    refine ⟨(sets_wrap hget hset hframe t _).mpr h.sets_earlier,
      (sets_wrap hget hset hframe t _).mpr h.sets_later, ?_⟩
    rw [hboth, h.overrides, hset]

end Lawful

/-- No bit outside the masks of the bytes has changed. -/
def KeepsOutside (mask : ℕ → UInt8) (xs ys : List UInt8) : Prop :=
  ys.length = xs.length ∧ ∀ i, ys.getD i 0 &&& ~~~mask i = xs.getD i 0 &&& ~~~mask i

namespace KeepsOutside

variable {mask : ℕ → UInt8} {xs ys zs : List UInt8}

theorem refl (mask : ℕ → UInt8) (xs : List UInt8) : KeepsOutside mask xs xs := ⟨rfl, fun _ => rfl⟩

theorem trans (h : KeepsOutside mask xs ys) (h' : KeepsOutside mask ys zs) :
    KeepsOutside mask xs zs :=
  ⟨h'.1.trans h.1, fun i => (h'.2 i).trans (h.2 i)⟩

/-- A byte that agrees outside its mask may be replaced. -/
theorem set {i : ℕ} {x : UInt8} (hx : x &&& ~~~mask i = xs.getD i 0 &&& ~~~mask i) :
    KeepsOutside mask xs (xs.set i x) := by
  refine ⟨List.length_set, ?_⟩
  intro j
  by_cases hj : i = j
  · subst hj
    by_cases hi : i < xs.length
    · rw [List.getD_eq_getElem?_getD, List.getElem?_set_self hi]
      exact hx
    · rw [List.set_eq_of_length_le (by omega)]
  · rw [List.getD_eq_getElem?_getD, List.getElem?_set_ne hj, List.getD_eq_getElem?_getD]

/-- A copy may be written over bytes that lie in the field as a whole. -/
theorem of_overwrite {i : ℕ} (h : overwrite xs i zs = .ok ys)
    (hmask : ∀ j, i ≤ j → j < i + zs.length → mask j = 0xFF) : KeepsOutside mask xs ys := by
  refine ⟨overwrite_length h, ?_⟩
  intro j
  by_cases hj : i ≤ j ∧ j < i + zs.length
  · have hall (b : UInt8) : b &&& ~~~(0xFF : UInt8) = 0 := by
      rw [show ~~~(0xFF : UInt8) = 0 from rfl, UInt8.and_zero]
    rw [hmask j hj.1 hj.2, hall, hall]
  · rw [overwrite_getD h (by omega)]

end KeepsOutside

/-- A copy over a copy of the same size is the second one alone. -/
theorem overwrite_overwrite {α : Type} {xs ys zs : List α} {i : ℕ}
    (hfits : i + ys.length ≤ xs.length) (hlength : ys.length = zs.length) :
    (overwrite xs i ys >>= (overwrite · i zs)) = overwrite xs i zs := by
  have hsplit : xs = xs.take i ++ (xs.drop i).take ys.length ++ xs.drop (i + ys.length) := by
    rw [List.append_assoc, ← List.drop_drop, List.take_append_drop, List.take_append_drop]
  have hfront : i = (xs.take i).length := by
    rw [List.length_take]
    omega
  have hold : ((xs.drop i).take ys.length).length = ys.length := by
    rw [List.length_take, List.length_drop]
    omega
  have hfirst := overwrite_append (xs.take i) _ ys (xs.drop (i + ys.length)) hfront hold.symm
  have hdirect := overwrite_append (xs.take i) _ zs (xs.drop (i + ys.length)) hfront
    (hlength.symm.trans hold.symm)
  rw [← hsplit] at hfirst hdirect
  rw [hfirst, ok_bind, hdirect]
  exact overwrite_append _ _ zs _ hfront hlength.symm

/-- The mask of a field within one byte. -/
def byteMask (i : ℕ) (m : UInt8) (j : ℕ) : UInt8 := if j = i then m else 0

/-- Replace one byte by what a function makes of it. -/
def update (i : ℕ) (f : UInt8 → UInt8) (xs : List UInt8) : Except Fault (List UInt8) := do
  let b ← readAt xs i
  writeAt xs i (f b)

theorem update_eq {xs : List UInt8} {i : ℕ} (hi : i < xs.length) (f : UInt8 → UInt8) :
    update i f xs = .ok (xs.set i (f (xs.getD i 0))) := by
  rw [update, readAt_getD hi 0]
  exact if_pos hi

section Byte

variable {α : Type} (i : ℕ) (m : UInt8) (read : UInt8 → α) (write : α → UInt8 → UInt8)

/-- Read a field within one byte. -/
def getByte (xs : List UInt8) : Except Fault α := do
  let b ← readAt xs i
  return read b

variable {i}

/-- A byte with a field comes back when the byte alone does. -/
theorem sets_byte_iff {xs : List UInt8} (hi : i < xs.length) (a : α) :
    Sets (getByte i read) (fun xs a => update i (write a) xs) (KeepsOutside (byteMask i m)) xs a ↔
      read (write a (xs.getD i 0)) = a ∧
        write a (xs.getD i 0) &&& ~~~m = xs.getD i 0 &&& ~~~m := by
  have hlength : (xs.set i (write a (xs.getD i 0))).length = xs.length := List.length_set
  have hat := getD_set_self hi (write a (xs.getD i 0)) 0
  have hread : getByte i read (xs.set i (write a (xs.getD i 0))) =
      .ok (read (write a (xs.getD i 0))) := by
    rw [getByte, readAt_getD (by omega) 0, hat]
    rfl
  have hmask : byteMask i m i = m := if_pos rfl
  constructor
  · rintro ⟨ys, hys, hvalue, hkeep⟩
    cases (update_eq hi (write a)).symm.trans hys
    have hkept := hkeep.2 i
    rw [hat, hmask] at hkept
    exact ⟨Except.ok.inj (hread.symm.trans hvalue), hkept⟩
  · rintro ⟨hvalue, hkept⟩
    refine ⟨_, update_eq hi (write a), hread.trans (congrArg _ hvalue), KeepsOutside.set ?_⟩
    rw [hmask]
    exact hkept

/-- The setter of a field within one byte is lawful when what it does to that byte is. -/
theorem lawful_byte_iff {xs : List UInt8} (hi : i < xs.length) (b a : α) :
    Lawful (getByte i read) (fun xs a => update i (write a) xs) (KeepsOutside (byteMask i m)) xs b
        a ↔
      (read (write b (xs.getD i 0)) = b ∧ write b (xs.getD i 0) &&& ~~~m = xs.getD i 0 &&& ~~~m) ∧
        (read (write a (xs.getD i 0)) = a ∧ write a (xs.getD i 0) &&& ~~~m = xs.getD i 0 &&& ~~~m) ∧
          write a (write b (xs.getD i 0)) = write a (xs.getD i 0) := by
  have hlength : (xs.set i (write b (xs.getD i 0))).length = xs.length := List.length_set
  have hat := getD_set_self hi (write b (xs.getD i 0)) 0
  have hboth : (update i (write b) xs >>= fun ys => update i (write a) ys) =
      .ok (xs.set i (write a (write b (xs.getD i 0)))) := by
    rw [update_eq hi, ok_bind, update_eq (by omega), hat, List.set_set]
  have hoverrides : (update i (write b) xs >>= fun ys => update i (write a) ys) =
      update i (write a) xs ↔ write a (write b (xs.getD i 0)) = write a (xs.getD i 0) := by
    rw [hboth, update_eq hi]
    constructor
    · intro heq
      have hbyte := congrArg (fun ys => ys.getD i 0) (Except.ok.inj heq)
      simpa only [getD_set_self hi] using hbyte
    · intro heq
      rw [heq]
  rw [← sets_byte_iff m read write hi b, ← sets_byte_iff m read write hi a, ← hoverrides]
  exact ⟨fun h => ⟨h.1, h.2, h.3⟩, fun h => ⟨h.1, h.2.1, h.2.2⟩⟩

end Byte

section Word

/-- The buffer with a word stored in two of its bytes. -/
def setWord (mem : List UInt8) (i : ℕ) (v : UInt16) : List UInt8 :=
  (mem.set i (hi v)).set (i + 1) (lo v)

/-- The mask of a field of two bytes. -/
def wordMask (i j : ℕ) : UInt8 := if j = i ∨ j = i + 1 then 0xFF else 0

theorem write16_setWord {mem : List UInt8} {i : ℕ} (h : i + 1 < mem.length) (v : UInt16) :
    write16 mem i v = .ok (setWord mem i v) := if_pos h

@[simp] theorem setWord_length (mem : List UInt8) (i : ℕ) (v : UInt16) :
    (setWord mem i v).length = mem.length := by
  rw [setWord, List.length_set, List.length_set]

theorem setWord_getD_ne {mem : List UInt8} {i j : ℕ} (h : j ≠ i ∧ j ≠ i + 1) (v : UInt16)
    (d : UInt8) : (setWord mem i v).getD j d = mem.getD j d := by
  rw [setWord, getD_set_ne h.2.symm, getD_set_ne h.1.symm]

/-- The stored word is read back. -/
theorem read16_setWord {mem : List UInt8} {i : ℕ} (h : i + 1 < mem.length) (v : UInt16) :
    read16 (setWord mem i v) i = .ok v := by
  have hfirst : (setWord mem i v).getD i 0 = hi v := by
    rw [setWord, getD_set_ne (by omega), getD_set_self (by omega)]
  have hsecond : (setWord mem i v).getD (i + 1) 0 = lo v :=
    getD_set_self (by rw [List.length_set]; exact h) _ _
  rw [read16_getD (by rw [setWord_length]; exact h), hfirst, hsecond, join_hi_lo]

/-- A word is not seen by reading elsewhere. -/
theorem read16_setWord_ne {mem : List UInt8} {i j : ℕ} (h : j + 1 < i ∨ i + 1 < j) (v : UInt16) :
    read16 (setWord mem i v) j = read16 mem j := by
  rw [read16, setWord, readAt_set_ne (by omega), readAt_set_ne (by omega), readAt_set_ne (by omega),
    readAt_set_ne (by omega), read16]

theorem read16_set_ne {mem : List UInt8} {i j : ℕ} (h : i ≠ j ∧ i ≠ j + 1) (x : UInt8) :
    read16 (mem.set i x) j = read16 mem j := by
  rw [read16, readAt_set_ne h.1, readAt_set_ne h.2, read16]

theorem read16_drop (mem : List UInt8) (n i : ℕ) : read16 (mem.drop n) i = read16 mem (n + i) := by
  rw [read16, readAt_drop, readAt_drop, read16, Nat.add_assoc]

/-- A word stored in a field of whole bytes stays inside the field. -/
theorem KeepsOutside.of_setWord {mask : ℕ → UInt8} {mem : List UInt8} {i : ℕ} (hfirst : mask i = 0xFF)
    (hsecond : mask (i + 1) = 0xFF) (v : UInt16) : KeepsOutside mask mem (setWord mem i v) := by
  have hall (b : UInt8) : b &&& ~~~(0xFF : UInt8) = 0 := UInt8.and_zero
  apply KeepsOutside.trans (KeepsOutside.set ?_) (KeepsOutside.set ?_)
  · rw [hfirst, hall, hall]
  · rw [hsecond, hall, hall]

/-- The word that is stored last is the one that stays. -/
theorem setWord_setWord (mem : List UInt8) (i : ℕ) (v w : UInt16) :
    setWord (setWord mem i v) i w = setWord mem i w := by
  rw [setWord, setWord, List.set_comm _ _ (by omega : i + 1 ≠ i), List.set_set, List.set_set,
    setWord]

/-- A word stored in a front leaves what follows alone. -/
theorem setWord_append {mem : List UInt8} {i : ℕ} (h : i + 1 < mem.length) (v : UInt16)
    (behind : List UInt8) : setWord (mem ++ behind) i v = setWord mem i v ++ behind := by
  rw [setWord, List.set_append_left _ _ (by omega),
    List.set_append_left _ _ (by rw [List.length_set]; exact h), setWord]

/-- The two bytes of the word stand in the place of the old ones. -/
theorem setWord_eq {mem : List UInt8} {i : ℕ} (h : i + 1 < mem.length) (v : UInt16) :
    mem.take i ++ bytes16 v ++ mem.drop (i + 2) = setWord mem i v :=
  Except.ok.inj ((write16_of_lt h v).symm.trans (write16_setWord h v))

/-- A word stored behind a front is stored in the whole buffer. -/
theorem take_append_setWord (mem : List UInt8) (n i : ℕ) (v : UInt16) :
    mem.take n ++ setWord (mem.drop n) i v = setWord mem (n + i) v := by
  have hfront : mem.take n = (setWord mem (n + i) v).take n := by
    rw [setWord, List.take_set_of_le (by omega), List.take_set_of_le (by omega)]
  have hbehind : setWord (mem.drop n) i v = (setWord mem (n + i) v).drop n := by
    rw [setWord, setWord, List.set_drop, List.set_drop, Nat.add_assoc]
  rw [hfront, hbehind, List.take_append_drop]

end Word

end Lens
