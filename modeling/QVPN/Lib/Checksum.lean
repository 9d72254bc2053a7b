import QVPN.Lib.BigEndian
import Mathlib.Data.List.Range

/-!
# Ones-complement checksums

The sum of big-endian words at chosen positions of a buffer and of the words of a byte list,
kept in 32 bits, with the carries folded into the lower half at the end. The stored checksum
is the complement of the folded sum.
-/

namespace Checksum

open BigEndian Memory

/-- Add the words at the given positions, one after the other. -/
def sumWords (mem : List UInt8) : List ℕ → UInt32 → Except Fault UInt32
  | [], sum => .ok sum
  | i :: positions, sum => do
    let word ← read16 mem i
    sumWords mem positions (sum + word.toUInt32)

/-- Add the words of a list of bytes; an odd last byte is the upper half of a word. -/
def sumBytes : List UInt8 → UInt32 → UInt32
  | a :: b :: rest, sum => sumBytes rest (sum + (join a b).toUInt32)
  | [a], sum => sum + (join a 0).toUInt32
  | [], sum => sum

/-- Add the carries to the lower half until there are none, for at most `fuel` rounds. -/
def foldCarries : ℕ → UInt32 → UInt32
  | 0, sum => sum
  | fuel + 1, sum =>
    if sum >>> 16 = 0 then sum else foldCarries fuel ((sum >>> 16) + (sum &&& 0xFFFF))

/-- The checksum that completes a sum. -/
def complement (sum : UInt32) : UInt16 := ~~~(foldCarries 2 sum).toUInt16

/-- The positions of the words in the first `size` bytes. -/
def wordPositions (size : ℕ) : List ℕ := (List.range ((size + 1) / 2)).map (2 * ·)

/-- One round in numbers. -/
theorem fold_toNat (sum : UInt32) :
    ((sum >>> 16) + (sum &&& 0xFFFF)).toNat = sum.toNat / 65536 + sum.toNat % 65536 := by
  have h := sum.toNat_lt
  have hand : (sum &&& 0xFFFF).toNat = sum.toNat % 65536 := by
    rw [UInt32.toNat_and]
    exact Nat.and_two_pow_sub_one_eq_mod sum.toNat 16
  have hshift : (sum >>> 16).toNat = sum.toNat / 65536 := by
    rw [UInt32.toNat_shiftRight]
    simp [Nat.shiftRight_eq_div_pow]
  rw [UInt32.toNat_add, hand, hshift]
  omega

/-- Two rounds fold every carry of a 32-bit sum, so the fuel never ends the loop. -/
theorem foldCarries_lt (sum : UInt32) : (foldCarries 2 sum).toNat < 65536 := by
  have hdone (s : UInt32) : s >>> 16 = 0 ↔ s.toNat < 65536 := by
    rw [← UInt32.toNat_inj, UInt32.toNat_shiftRight]
    simp [Nat.shiftRight_eq_div_pow]
  have h := sum.toNat_lt
  have hround := fold_toNat sum
  have hsecond := fold_toNat ((sum >>> 16) + (sum &&& 0xFFFF))
  simp only [foldCarries, hdone]
  split
  · assumption
  · split
    · assumption
    · omega

end Checksum
