import QVPN.Lib.Checksum

/-!
# Ones-complement sums

Addition of 16-bit numbers with the carry taken round, over the words of a byte string. The
sum depends only on the sum of the words as a natural number, which is what a wider
accumulator holds before its carries are folded. Storing the complement of that sum in a
word that was zero makes the ones-complement sum the greatest 16-bit number.
-/

namespace Checksum

open BigEndian Memory

/-- The sum of the words; an odd last byte is the upper half of a word. -/
def wordSum : List UInt8 → ℕ
  | a :: b :: rest => (join a b).toNat + wordSum rest
  | [a] => (join a 0).toNat
  | [] => 0

/-- Addition with the carry taken round. -/
def onesAdd (a b : ℕ) : ℕ := (a + b) % 65536 + (a + b) / 65536

/-- The ones-complement sum of the words, from the left. -/
def onesSum : List UInt8 → ℕ → ℕ
  | a :: b :: rest, acc => onesSum rest (onesAdd acc (join a b).toNat)
  | [a], acc => onesAdd acc (join a 0).toNat
  | [], acc => acc

/-- The 16-bit number that a sum is reduced to; only zero itself becomes zero. -/
def onesResidue (n : ℕ) : ℕ := if n = 0 then 0 else (n - 1) % 65535 + 1

theorem onesResidue_le (n : ℕ) : onesResidue n ≤ 65535 := by
  unfold onesResidue
  split <;> omega

/-- Small sums are their own residue. -/
theorem onesResidue_of_le {n : ℕ} (h : n ≤ 65535) : onesResidue n = n := by
  unfold onesResidue
  split <;> omega

/-- A round of folding does not change the residue. -/
theorem onesResidue_fold (n : ℕ) : onesResidue (n / 65536 + n % 65536) = onesResidue n := by
  unfold onesResidue
  split <;> split <;> omega

/-- One addition in place of a residue. -/
theorem onesAdd_residue (n : ℕ) {w : ℕ} (hw : w ≤ 65535) :
    onesAdd (onesResidue n) w = onesResidue (n + w) := by
  have hle := onesResidue_le n
  have hsum : onesResidue (onesResidue n + w) = onesResidue (n + w) := by
    unfold onesResidue
    split <;> split <;> split <;> omega
  rw [← hsum, ← onesResidue_fold (onesResidue n + w), onesAdd, Nat.add_comm (_ % _)]
  exact (onesResidue_of_le (by omega)).symm

theorem join_le (a b : UInt8) : (join a b).toNat ≤ 65535 := by
  have h := (join a b).toNat_lt
  omega

/-- The ones-complement sum is the residue of the sum of the words. -/
theorem onesSum_residue (xs : List UInt8) (n : ℕ) :
    onesSum xs (onesResidue n) = onesResidue (n + wordSum xs) := by
  induction xs using wordSum.induct generalizing n with
  | case1 a b rest ih => rw [onesSum, onesAdd_residue n (join_le a b), ih, wordSum, Nat.add_assoc]
  | case2 a => rw [onesSum, onesAdd_residue n (join_le a 0), wordSum]
  | case3 => rw [onesSum, wordSum, Nat.add_zero]

theorem onesSum_eq (xs : List UInt8) : onesSum xs 0 = onesResidue (wordSum xs) := by
  have h := onesSum_residue xs 0
  rwa [Nat.zero_add] at h

/-- Behind an even number of bytes the words start anew. -/
theorem wordSum_append {xs : List UInt8} (h : xs.length % 2 = 0) (ys : List UInt8) :
    wordSum (xs ++ ys) = wordSum xs + wordSum ys := by
  induction xs using wordSum.induct with
  | case1 a b rest ih =>
    have hrest : rest.length % 2 = 0 := by
      simp only [List.length_cons] at h
      omega
    rw [List.cons_append, List.cons_append, wordSum, wordSum, ih hrest, Nat.add_assoc]
  | case2 a => cases h
  | case3 => rw [List.nil_append, wordSum, Nat.zero_add]

/-- The bytes of a word sum to the word. -/
theorem wordSum_bytes16 (v : UInt16) : wordSum (bytes16 v) = v.toNat := by
  rw [bytes16, wordSum, join_hi_lo, wordSum, Nat.add_zero]

/-- A word at an even position adds itself to what the rest sums to. -/
theorem wordSum_insert {pre : List UInt8} (h : pre.length % 2 = 0) (v : UInt16)
    (post : List UInt8) :
    wordSum (pre ++ bytes16 v ++ post) = wordSum (pre ++ bytes16 0 ++ post) + v.toNat := by
  have hpre (w : UInt16) : (pre ++ bytes16 w).length % 2 = 0 := by
    rw [List.length_append, bytes16_length]
    omega
  rw [wordSum_append (hpre v), wordSum_append (hpre 0), wordSum_append h, wordSum_append h,
    wordSum_bytes16, wordSum_bytes16, show (0 : UInt16).toNat = 0 from rfl]
  omega

/-- Every word is at most the greatest 16-bit number. -/
theorem wordSum_le (xs : List UInt8) : wordSum xs ≤ 65535 * ((xs.length + 1) / 2) := by
  induction xs using wordSum.induct with
  | case1 a b rest ih =>
    have hword := join_le a b
    simp only [wordSum, List.length_cons]
    omega
  | case2 a =>
    have hword := join_le a 0
    rw [wordSum, List.length_singleton]
    omega
  | case3 => exact Nat.zero_le _

/-- Behind an even number of bytes the loop goes on with the sum so far. -/
theorem sumBytes_append (xs : List UInt8) (h : xs.length % 2 = 0) (ys : List UInt8)
    (sum : UInt32) : sumBytes (xs ++ ys) sum = sumBytes ys (sumBytes xs sum) := by
  induction xs, sum using sumBytes.induct with
  | case1 a b rest sum ih =>
    have hrest : rest.length % 2 = 0 := by
      simp only [List.length_cons] at h
      omega
    rw [List.cons_append, List.cons_append, sumBytes, sumBytes, ih hrest]
  | case2 sum a => cases h
  | case3 sum => rw [List.nil_append, sumBytes]

/-- Short of 32 bits the accumulator holds the sum of the words. -/
theorem sumBytes_toNat (xs : List UInt8) {sum : UInt32} (h : sum.toNat + wordSum xs < 2 ^ 32) :
    (sumBytes xs sum).toNat = sum.toNat + wordSum xs := by
  have hadd (w : UInt16) (s : UInt32) (hs : s.toNat + w.toNat < 2 ^ 32) :
      (s + w.toUInt32).toNat = s.toNat + w.toNat := by
    rw [UInt32.toNat_add, UInt16.toNat_toUInt32, Nat.mod_eq_of_lt hs]
  induction xs, sum using sumBytes.induct with
  | case1 a b rest sum ih =>
    rw [wordSum] at h
    have hstep := hadd (join a b) sum (by omega)
    rw [sumBytes, ih (by omega), hstep, wordSum, Nat.add_assoc]
  | case2 sum a =>
    rw [wordSum] at h
    rw [sumBytes, hadd _ _ h, wordSum]
  | case3 sum => rw [sumBytes, wordSum, Nat.add_zero]

/-- Up to the greatest packet with its pseudo header the accumulator holds every partial sum. -/
theorem sumBytes_exact {xs : List UInt8} (h : xs.length ≤ 65547) :
    (sumBytes xs 0).toNat = wordSum xs := by
  have hle := wordSum_le xs
  rw [sumBytes_toNat xs (by rw [UInt32.toNat_zero]; omega), UInt32.toNat_zero, Nat.zero_add]

/-- A walk that ends has read a word at each of its positions. -/
theorem sumWords_lt {mem : List UInt8} {positions : List ℕ} {sum sum' : UInt32}
    (h : sumWords mem positions sum = .ok sum') : ∀ i ∈ positions, i + 1 < mem.length := by
  induction positions generalizing sum with
  | nil => simp
  | cons j positions ih =>
    obtain ⟨word, hword, h⟩ := bind_eq_ok_iff.mp h
    intro i hi
    rcases List.mem_cons.mp hi with rfl | hi
    · exact read16_lt hword
    · exact ih h i hi

/-- Two bytes further on the positions are those of the rest. -/
theorem sumWords_shift (a b : UInt8) (mem : List UInt8) (positions : List ℕ) (sum : UInt32) :
    sumWords (a :: b :: mem) (positions.map (· + 2)) sum = sumWords mem positions sum := by
  induction positions generalizing sum with
  | nil => rfl
  | cons i positions ih =>
    have hread : read16 (a :: b :: mem) (i + 2) = read16 mem i := rfl
    rw [List.map_cons, sumWords, sumWords, hread]
    congr 1
    funext word
    rw [ih]

/-- The first word lies at the front and the others behind it. -/
theorem wordPositions_add_two (size : ℕ) :
    wordPositions (size + 2) = 0 :: (wordPositions size).map (· + 2) := by
  rw [wordPositions, show (size + 2 + 1) / 2 = (size + 1) / 2 + 1 by omega, List.range_succ_eq_map,
    List.map_cons, List.map_map, wordPositions, List.map_map]
  rfl

/-- Walking the words of an even front by position is walking its bytes. -/
theorem sumWords_front (xs : List UInt8) (h : xs.length % 2 = 0) (ys : List UInt8)
    (sum : UInt32) : sumWords (xs ++ ys) (wordPositions xs.length) sum = .ok (sumBytes xs sum) := by
  induction xs, sum using sumBytes.induct with
  | case1 a b rest sum ih =>
    have hrest : rest.length % 2 = 0 := by
      simp only [List.length_cons] at h
      omega
    have hread : read16 (a :: b :: (rest ++ ys)) 0 = .ok (join a b) := rfl
    rw [List.length_cons, List.length_cons, wordPositions_add_two, List.cons_append,
      List.cons_append, sumWords, hread, ok_bind, sumWords_shift, ih hrest, sumBytes]
  | case2 sum a => cases h
  | case3 sum => rfl

theorem sumWords_all (xs : List UInt8) (h : xs.length % 2 = 0) (sum : UInt32) :
    sumWords xs (wordPositions xs.length) sum = .ok (sumBytes xs sum) := by
  have hfront := sumWords_front xs h [] sum
  rwa [List.append_nil] at hfront

/-- The loop that folds the carries ends after two rounds, with the residue of the sum. -/
theorem foldCarries_residue (sum : UInt32) :
    foldCarries 2 sum >>> 16 = 0 ∧ (foldCarries 2 sum).toNat = onesResidue sum.toNat := by
  have hlt := foldCarries_lt sum
  have hdone : foldCarries 2 sum >>> 16 = 0 := by
    rw [← UInt32.toNat_inj, UInt32.toNat_shiftRight]
    simp [Nat.shiftRight_eq_div_pow, hlt]
  have hround (fuel : ℕ) (s : UInt32) :
      onesResidue (foldCarries fuel s).toNat = onesResidue s.toNat := by
    induction fuel generalizing s with
    | zero => rfl
    | succ fuel ih =>
      rw [foldCarries]
      split
      · rfl
      · rw [ih, fold_toNat, onesResidue_fold]
  refine ⟨hdone, ?_⟩
  rw [← hround 2 sum, onesResidue_of_le (by omega)]

theorem complement_toNat (sum : UInt32) :
    (complement sum).toNat = 65535 - onesResidue sum.toNat := by
  have hlt := foldCarries_lt sum
  rw [complement, UInt16.toNat_not, UInt32.toNat_toUInt16, (foldCarries_residue sum).2,
    Nat.mod_eq_of_lt]
  · rfl
  · rw [← (foldCarries_residue sum).2]
    exact hlt

/-- A stored complement completes the sum. -/
theorem onesSum_complement {pre post : List UInt8} (hpre : pre.length % 2 = 0)
    (hsize : (pre ++ bytes16 0 ++ post).length ≤ 65547) :
    onesSum (pre ++ bytes16 (complement (sumBytes (pre ++ bytes16 0 ++ post) 0)) ++ post) 0 =
      65535 := by
  rw [onesSum_eq, wordSum_insert hpre, complement_toNat, sumBytes_exact hsize]
  generalize wordSum (pre ++ bytes16 0 ++ post) = n
  unfold onesResidue
  split <;> split <;> omega

end Checksum
