import QVPN.Lib.Memory
import Mathlib.Data.UInt

/-!
# Big-endian words

The shift-and-mask encoding of 16-bit and 32-bit words into bytes, most significant
byte first, and the shift-and-or decoding. Both directions are inverse to each other
for every word and every tuple of bytes, so a field survives any number of crossings
between a wire layout and a machine word.
-/

namespace BigEndian

/-- The most significant byte of a 16-bit word. -/
def hi (v : UInt16) : UInt8 := (v >>> 8).toUInt8

/-- The least significant byte of a 16-bit word. -/
def lo (v : UInt16) : UInt8 := v.toUInt8

/-- The 16-bit word with the given high and low bytes. -/
def join (a b : UInt8) : UInt16 := a.toUInt16 <<< 8 ||| b.toUInt16

/-- The two bytes of a 16-bit word in wire order. -/
def bytes16 (v : UInt16) : List UInt8 := [hi v, lo v]

/-- The four bytes of a 32-bit word in wire order. -/
def bytes32 (v : UInt32) : List UInt8 :=
  [(v >>> 24).toUInt8, (v >>> 16).toUInt8, (v >>> 8).toUInt8, v.toUInt8]

/-- The 32-bit word with the given bytes, most significant first. -/
def join32 (a b c d : UInt8) : UInt32 :=
  a.toUInt32 <<< 24 ||| b.toUInt32 <<< 16 ||| c.toUInt32 <<< 8 ||| d.toUInt32

/-- Read a 16-bit word at a position of a buffer. -/
def read16 (mem : List UInt8) (i : ℕ) : Except Memory.Fault UInt16 := do
  let a ← Memory.readAt mem i
  let b ← Memory.readAt mem (i + 1)
  return join a b

/-- Read a 32-bit word at a position of a buffer. -/
def read32 (mem : List UInt8) (i : ℕ) : Except Memory.Fault UInt32 := do
  let a ← Memory.readAt mem i
  let b ← Memory.readAt mem (i + 1)
  let c ← Memory.readAt mem (i + 2)
  let d ← Memory.readAt mem (i + 3)
  return join32 a b c d

/-- Write a 16-bit word at a position of a buffer. -/
def write16 (mem : List UInt8) (i : ℕ) (v : UInt16) : Except Memory.Fault (List UInt8) :=
  if i + 1 < mem.length then .ok ((mem.set i (hi v)).set (i + 1) (lo v))
  else .error .outOfBounds

/-- Numerically, the high byte is the quotient by 256. -/
theorem hi_toNat (v : UInt16) : (hi v).toNat = v.toNat / 256 := by
  have h := v.toNat_lt
  simp only [hi, UInt16.toNat_toUInt8, UInt16.toNat_shiftRight]
  simp [Nat.shiftRight_eq_div_pow]
  omega

/-- Numerically, the low byte is the remainder by 256. -/
theorem lo_toNat (v : UInt16) : (lo v).toNat = v.toNat % 256 := by
  simp [lo]

/-- Joining two bytes weighs the first with 256. -/
theorem join_toNat (a b : UInt8) : (join a b).toNat = a.toNat * 256 + b.toNat := by
  have ha := a.toNat_lt
  have hb := b.toNat_lt
  have hshift : (a.toUInt16 <<< 8).toNat = a.toNat <<< 8 := by
    simp [UInt16.toNat_shiftLeft, Nat.shiftLeft_eq]
    omega
  rw [join, UInt16.toNat_or, hshift, UInt8.toNat_toUInt16,
    ← Nat.shiftLeft_add_eq_or_of_lt (by simpa using hb), Nat.shiftLeft_eq]

/-- Decoding the bytes of a word gives the word back. -/
@[simp] theorem join_hi_lo (v : UInt16) : join (hi v) (lo v) = v := by
  apply UInt16.toNat_inj.mp
  rw [join_toNat, hi_toNat, lo_toNat]
  omega

/-- The high byte of a joined word is its first byte. -/
@[simp] theorem hi_join (a b : UInt8) : hi (join a b) = a := by
  apply UInt8.toNat_inj.mp
  have hb := b.toNat_lt
  rw [hi_toNat, join_toNat]
  omega

/-- The low byte of a joined word is its second byte. -/
@[simp] theorem lo_join (a b : UInt8) : lo (join a b) = b := by
  apply UInt8.toNat_inj.mp
  have hb := b.toNat_lt
  rw [lo_toNat, join_toNat]
  omega

/-- A number of at most sixteen bits is the value of its word. -/
theorem ofNat_toNat_of_le {n : ℕ} (h : n ≤ 65535) : (UInt16.ofNat n).toNat = n :=
  UInt16.toNat_ofNat_of_lt' (Nat.lt_succ_of_le h)

/-- An integer becomes the word of its residue. -/
theorem toNat_ofInt (x : ℤ) : (UInt16.ofInt x).toNat = (x % 65536).toNat := by
  rw [UInt16.ofInt, UInt16.toNat_ofNat']
  omega

/-- An integer that is a number becomes the word of the number. -/
theorem ofInt_eq_ofNat {x : ℤ} {n : ℕ} (h : x = n) : UInt16.ofInt x = UInt16.ofNat n := by
  rw [← UInt16.toNat_inj, toNat_ofInt, UInt16.toNat_ofNat', h]
  omega

@[simp] theorem bytes16_length (v : UInt16) : (bytes16 v).length = 2 := rfl

@[simp] theorem bytes32_length (v : UInt32) : (bytes32 v).length = 4 := rfl

/-- Joining four bytes reads them as the digits of a base-256 number. -/
theorem join32_toNat (a b c d : UInt8) :
    (join32 a b c d).toNat = ((a.toNat * 256 + b.toNat) * 256 + c.toNat) * 256 + d.toNat := by
  have ha := a.toNat_lt
  have hb := b.toNat_lt
  have hc := c.toNat_lt
  have hd := d.toNat_lt
  have h1 : (a.toUInt32 <<< 24).toNat = a.toNat <<< 24 := by
    simp [UInt32.toNat_shiftLeft, Nat.shiftLeft_eq]
    omega
  have h2 : (b.toUInt32 <<< 16).toNat = b.toNat <<< 16 := by
    simp [UInt32.toNat_shiftLeft, Nat.shiftLeft_eq]
    omega
  have h3 : (c.toUInt32 <<< 8).toNat = c.toNat <<< 8 := by
    simp [UInt32.toNat_shiftLeft, Nat.shiftLeft_eq]
    omega
  have hab : a.toNat <<< 24 ||| b.toNat <<< 16 = (a.toNat * 256 + b.toNat) <<< 16 := by
    rw [show a.toNat <<< 24 = (a.toNat * 256) <<< 16 by simp [Nat.shiftLeft_eq]; omega,
      ← Nat.shiftLeft_or_distrib, show a.toNat * 256 = a.toNat <<< 8 by simp [Nat.shiftLeft_eq],
      ← Nat.shiftLeft_add_eq_or_of_lt (by simpa using hb)]
  have habc : (a.toNat * 256 + b.toNat) <<< 16 ||| c.toNat <<< 8 =
      ((a.toNat * 256 + b.toNat) * 256 + c.toNat) <<< 8 := by
    rw [show (a.toNat * 256 + b.toNat) <<< 16 = ((a.toNat * 256 + b.toNat) * 256) <<< 8 by
        simp [Nat.shiftLeft_eq]; omega, ← Nat.shiftLeft_or_distrib,
      show (a.toNat * 256 + b.toNat) * 256 = (a.toNat * 256 + b.toNat) <<< 8 by
        simp [Nat.shiftLeft_eq], ← Nat.shiftLeft_add_eq_or_of_lt (by simpa using hc)]
  simp only [join32, UInt32.toNat_or, h1, h2, h3, UInt8.toNat_toUInt32, hab, habc]
  rw [← Nat.shiftLeft_add_eq_or_of_lt (by simpa using hd), Nat.shiftLeft_eq]

/-- The wire bytes of a word joined from four bytes are these bytes. -/
@[simp] theorem bytes32_join32 (a b c d : UInt8) : bytes32 (join32 a b c d) = [a, b, c, d] := by
  have hb := b.toNat_lt
  have hc := c.toNat_lt
  have hd := d.toNat_lt
  have ha := a.toNat_lt
  simp only [bytes32, List.cons.injEq, and_true, ← UInt8.toNat_inj, UInt32.toNat_toUInt8,
    UInt32.toNat_shiftRight, join32_toNat]
  refine ⟨?_, ?_, ?_, ?_⟩ <;> simp [Nat.shiftRight_eq_div_pow] <;> omega

/-- Decoding the bytes of a double word gives the double word back. -/
@[simp] theorem join32_bytes32 (v : UInt32) :
    join32 (v >>> 24).toUInt8 (v >>> 16).toUInt8 (v >>> 8).toUInt8 v.toUInt8 = v := by
  have hv := v.toNat_lt
  rw [← UInt32.toNat_inj, join32_toNat]
  simp only [UInt32.toNat_toUInt8, UInt32.toNat_shiftRight]
  simp [Nat.shiftRight_eq_div_pow]
  omega

/-- Reading a word back from the place its bytes were written to. -/
theorem read16_append (pre : List UInt8) (v : UInt16) (rest : List UInt8) :
    read16 (pre ++ bytes16 v ++ rest) pre.length = .ok v := by
  have h0 := Memory.readAt_append_right pre (bytes16 v ++ rest) 0
  have h1 := Memory.readAt_append_right pre (bytes16 v ++ rest) 1
  rw [read16, List.append_assoc]
  simp only [Nat.add_zero] at h0
  rw [h0, h1]
  change Except.ok (join (hi v) (lo v)) = _
  rw [join_hi_lo]

/-- The word behind a prefix. -/
theorem read16_split {mem : List UInt8} {v : UInt16} {i : ℕ} (pre rest : List UInt8)
    (hmem : mem = pre ++ bytes16 v ++ rest) (hi : i = pre.length) : read16 mem i = .ok v := by
  rw [hmem, hi]
  exact read16_append pre v rest

/-- A word inside the buffer can be read. -/
theorem read16_of_lt {mem : List UInt8} {i : ℕ} (h : i + 1 < mem.length) :
    ∃ v, read16 mem i = .ok v := by
  obtain ⟨a, ha⟩ := Memory.readAt_of_lt (show i < mem.length by omega)
  obtain ⟨b, hb⟩ := Memory.readAt_of_lt h
  exact ⟨join a b, by rw [read16, ha, hb]; rfl⟩

/-- What follows the read of a word runs on the word of the two bytes. -/
theorem legal_read16_bind {β : Type} {mem : List UInt8} {i : ℕ}
    {f : UInt16 → Except Memory.Fault β} :
    Memory.Legal (read16 mem i >>= f) ↔
      i + 1 < mem.length ∧ Memory.Legal (f (join (mem.getD i 0) (mem.getD (i + 1) 0))) := by
  rw [read16, bind_assoc, Memory.legal_readAt_bind 0, bind_assoc, Memory.legal_readAt_bind 0,
    pure_bind]
  constructor
  · rintro ⟨_, h⟩
    exact h
  · intro h
    exact ⟨by omega, h⟩

/-- What follows the read of a double word runs on the double word of the four bytes. -/
theorem legal_read32_bind {β : Type} {mem : List UInt8} {i : ℕ}
    {f : UInt32 → Except Memory.Fault β} :
    Memory.Legal (read32 mem i >>= f) ↔
      i + 3 < mem.length ∧ Memory.Legal (f (join32 (mem.getD i 0) (mem.getD (i + 1) 0)
        (mem.getD (i + 2) 0) (mem.getD (i + 3) 0))) := by
  rw [read32, bind_assoc, Memory.legal_readAt_bind 0, bind_assoc, Memory.legal_readAt_bind 0,
    bind_assoc, Memory.legal_readAt_bind 0, bind_assoc, Memory.legal_readAt_bind 0, pure_bind]
  constructor
  · rintro ⟨_, _, _, h⟩
    exact h
  · intro h
    exact ⟨by omega, by omega, by omega, h⟩

/-- The word of the two bytes at a position. -/
theorem read16_getD {mem : List UInt8} {i : ℕ} (h : i + 1 < mem.length) :
    read16 mem i = .ok (join (mem.getD i 0) (mem.getD (i + 1) 0)) := by
  rw [read16, Memory.readAt_getD (by omega) 0, Memory.readAt_getD h 0]
  rfl

/-- Only inside the buffer a word can be read. -/
theorem read16_lt {mem : List UInt8} {i : ℕ} {v : UInt16} (h : read16 mem i = .ok v) :
    i + 1 < mem.length := by
  obtain ⟨a, -, h⟩ := Memory.bind_eq_ok_iff.mp h
  obtain ⟨b, hb, -⟩ := Memory.bind_eq_ok_iff.mp h
  exact (List.getElem?_eq_some_iff.mp (Memory.readAt_eq_ok_iff.mp hb)).1

/-- A word of a prefix is a word of the whole buffer. -/
theorem read16_of_prefix {mem : List UInt8} {i : ℕ} {v : UInt16} (h : read16 mem i = .ok v)
    (rest : List UInt8) : read16 (mem ++ rest) i = .ok v := by
  obtain ⟨a, ha, h⟩ := Memory.bind_eq_ok_iff.mp h
  obtain ⟨b, hb, h⟩ := Memory.bind_eq_ok_iff.mp h
  cases Except.ok.inj h
  rw [read16, Memory.readAt_of_prefix ha, Memory.readAt_of_prefix hb]
  rfl

/-- The bytes of a word that is read come first from its position on. -/
theorem drop_of_read16 {mem : List UInt8} {i : ℕ} {v : UInt16} (h : read16 mem i = .ok v) :
    mem.drop i = bytes16 v ++ mem.drop (i + 2) := by
  obtain ⟨a, ha, h⟩ := Memory.bind_eq_ok_iff.mp h
  obtain ⟨b, hb, h⟩ := Memory.bind_eq_ok_iff.mp h
  cases Except.ok.inj h
  rw [Memory.drop_of_readAt ha, Memory.drop_of_readAt hb, bytes16, hi_join, lo_join]
  rfl

/-- The bytes of a double word that is read come first from its position on. -/
theorem drop_of_read32 {mem : List UInt8} {i : ℕ} {v : UInt32} (h : read32 mem i = .ok v) :
    mem.drop i = bytes32 v ++ mem.drop (i + 4) := by
  obtain ⟨a, ha, h⟩ := Memory.bind_eq_ok_iff.mp h
  obtain ⟨b, hb, h⟩ := Memory.bind_eq_ok_iff.mp h
  obtain ⟨c, hc, h⟩ := Memory.bind_eq_ok_iff.mp h
  obtain ⟨d, hd, h⟩ := Memory.bind_eq_ok_iff.mp h
  cases Except.ok.inj h
  rw [Memory.drop_of_readAt ha, Memory.drop_of_readAt hb, Memory.drop_of_readAt hc,
    Memory.drop_of_readAt hd, bytes32_join32]
  rfl

/-- A double word inside the buffer can be read. -/
theorem read32_of_lt {mem : List UInt8} {i : ℕ} (h : i + 3 < mem.length) :
    ∃ v, read32 mem i = .ok v := by
  obtain ⟨a, ha⟩ := Memory.readAt_of_lt (show i < mem.length by omega)
  obtain ⟨b, hb⟩ := Memory.readAt_of_lt (show i + 1 < mem.length by omega)
  obtain ⟨c, hc⟩ := Memory.readAt_of_lt (show i + 2 < mem.length by omega)
  obtain ⟨d, hd⟩ := Memory.readAt_of_lt h
  exact ⟨join32 a b c d, by rw [read32, ha, hb, hc, hd]; rfl⟩

/-- A written word stands between what was before it and what was behind it. -/
theorem write16_of_lt {mem : List UInt8} {i : ℕ} (h : i + 1 < mem.length) (v : UInt16) :
    write16 mem i v = .ok (mem.take i ++ bytes16 v ++ mem.drop (i + 2)) := by
  have hlen : (mem.take i ++ [hi v]).length = i + 1 := by
    rw [List.length_append, List.length_take_of_le (by omega), List.length_singleton]
  have htail : mem.drop (i + 1) = mem[i + 1] :: mem.drop (i + 2) := List.drop_eq_getElem_cons h
  have hfirst : mem.set i (hi v) = mem.take i ++ [hi v] ++ mem.drop (i + 1) := by
    rw [List.set_eq_take_append_cons_drop, if_pos (by omega), List.append_cons]
  rw [write16, if_pos h, hfirst, htail, List.set_append_right _ _ (by rw [hlen]), hlen,
    Nat.sub_self, List.set_cons_zero, bytes16]
  simp only [List.append_assoc, List.cons_append, List.nil_append]

/-- A word written over the bytes of a word replaces it. -/
theorem write16_append (pre : List UInt8) (v w : UInt16) (rest : List UInt8) {i : ℕ}
    (hi : i = pre.length) : write16 (pre ++ bytes16 w ++ rest) i v =
      .ok (pre ++ bytes16 v ++ rest) := by
  have hwritten : (pre ++ bytes16 w).length = i + 2 := by
    rw [List.length_append, hi, bytes16_length]
  rw [write16_of_lt (by rw [List.length_append, hwritten]; omega), List.drop_left' hwritten,
    List.append_assoc pre (bytes16 w), List.take_left' hi.symm]

/-- A word written where one was written before replaces it. -/
theorem write16_again {mem : List UInt8} {i : ℕ} (h : i + 1 < mem.length) (v w : UInt16) :
    write16 (mem.take i ++ bytes16 w ++ mem.drop (i + 2)) i v =
      .ok (mem.take i ++ bytes16 v ++ mem.drop (i + 2)) :=
  write16_append _ _ _ _ (List.length_take_of_le (by omega)).symm

/-- The double word of the four bytes at a position. -/
theorem read32_getD {mem : List UInt8} {i : ℕ} (h : i + 3 < mem.length) :
    read32 mem i = .ok (join32 (mem.getD i 0) (mem.getD (i + 1) 0) (mem.getD (i + 2) 0)
      (mem.getD (i + 3) 0)) := by
  rw [read32, Memory.readAt_getD (show i < mem.length by omega) 0,
    Memory.readAt_getD (show i + 1 < mem.length by omega) 0,
    Memory.readAt_getD (show i + 2 < mem.length by omega) 0, Memory.readAt_getD h 0]
  rfl

theorem write16_length {mem mem' : List UInt8} {i : ℕ} {v : UInt16}
    (h : write16 mem i v = .ok mem') : mem'.length = mem.length := by
  unfold write16 at h
  split at h
  · cases Except.ok.inj h
    rw [List.length_set, List.length_set]
  · cases h

/-- Writing a word changes nothing outside the part of the buffer it lies in. -/
theorem write16_middle {pre mid rest mem : List UInt8} {i : ℕ} {v : UInt16}
    (hpre : pre.length ≤ i) (hmid : i + 1 < pre.length + mid.length)
    (h : write16 (pre ++ mid ++ rest) i v = .ok mem) :
    ∃ mid', mid'.length = mid.length ∧ mem = pre ++ mid' ++ rest := by
  unfold write16 at h
  split at h
  · cases Except.ok.inj h
    refine ⟨(mid.set (i - pre.length) (hi v)).set (i - pre.length + 1) (lo v), by simp, ?_⟩
    have hstep (xs : List UInt8) (hxs : xs.length = mid.length) (j : ℕ) (b : UInt8)
        (hj : pre.length ≤ j) (hjm : j < pre.length + mid.length) :
        (pre ++ xs ++ rest).set j b = pre ++ xs.set (j - pre.length) b ++ rest := by
      rw [List.append_assoc, List.set_append_right _ _ hj,
        List.set_append_left _ _ (by omega), List.append_assoc]
    rw [hstep mid rfl i _ hpre (by omega), hstep _ (by simp) (i + 1) _ (by omega) hmid,
      Nat.sub_add_comm hpre]
  · cases h

/-- A buffer around the word at a position. -/
theorem word_split {mem : List UInt8} {i : ℕ} (h : i + 1 < mem.length) :
    mem = mem.take i ++ bytes16 (join (mem.getD i 0) (mem.getD (i + 1) 0)) ++ mem.drop (i + 2) := by
  rw [List.append_assoc, ← drop_of_read16 (read16_getD h), List.take_append_drop]

/-- Buffers that differ in a word agree outside it. -/
theorem getElem?_outside {pre rest : List UInt8} (v w : UInt16) {i : ℕ} (hfirst : i ≠ pre.length)
    (hsecond : i ≠ pre.length + 1) :
    (pre ++ bytes16 w ++ rest)[i]? = (pre ++ bytes16 v ++ rest)[i]? := by
  by_cases hi : i < pre.length
  · rw [List.append_assoc, List.append_assoc, List.getElem?_append_left hi,
      List.getElem?_append_left hi]
  · have hbehind (w : UInt16) : (pre ++ bytes16 w).length ≤ i := by
      rw [List.length_append, bytes16_length]
      omega
    rw [List.getElem?_append_right (hbehind w), List.getElem?_append_right (hbehind v)]
    simp only [List.length_append, bytes16_length]

/-- A buffer that agrees with another outside a word differs from it in the word. -/
theorem eq_of_agree_outside {pre rest mem : List UInt8} {v : UInt16}
    (hlength : mem.length = (pre ++ bytes16 v ++ rest).length)
    (h : ∀ i, i ≠ pre.length → i ≠ pre.length + 1 → mem[i]? = (pre ++ bytes16 v ++ rest)[i]?) :
    ∃ w, mem = pre ++ bytes16 w ++ rest := by
  have hsize : pre.length + 1 < mem.length := by
    simp only [hlength, List.length_append, bytes16_length]
    omega
  refine ⟨join (mem.getD pre.length 0) (mem.getD (pre.length + 1) 0), List.ext_getElem? fun i => ?_⟩
  by_cases hfirst : i = pre.length
  · rw [hfirst, List.append_assoc, List.getElem?_append_right (by omega), Nat.sub_self]
    simp [bytes16, hsize, Nat.lt_of_succ_lt hsize]
  · by_cases hsecond : i = pre.length + 1
    · rw [hsecond, List.append_assoc, List.getElem?_append_right (by omega), Nat.add_sub_cancel_left]
      simp [bytes16, hsize]
    · rw [h i hfirst hsecond]
      exact getElem?_outside _ _ hfirst hsecond

/-- Writing a word behind a prefix keeps the prefix. -/
theorem write16_behind {pre rest mem : List UInt8} {i : ℕ} {v : UInt16} (hpre : pre.length ≤ i)
    (h : write16 (pre ++ rest) i v = .ok mem) : ∃ rest', mem = pre ++ rest' := by
  have hlt : i + 1 < pre.length + rest.length := by
    unfold write16 at h
    split at h
    · rwa [List.length_append] at *
    · cases h
  have hall : write16 (pre ++ rest ++ []) i v = .ok mem := by simpa using h
  obtain ⟨rest', -, hmem⟩ := write16_middle hpre hlt hall
  exact ⟨rest', by simpa using hmem⟩

end BigEndian
