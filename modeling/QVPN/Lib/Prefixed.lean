import QVPN.Lib.BigEndian
import Mathlib.Algebra.BigOperators.Group.List.Basic

/-!
# Formats of length-prefixed parts

A format is described by its reader, which takes a value off the front of a sequence of bytes. A
part of variable size stands behind its length, in a number of bytes that the format fixes, most
significant byte first; what stands inside of it must fill it.

A reader takes bytes as a value if it does so whatever stands behind them. The rules below follow
the construction of a reader, so that a generator is compared with a format part by part.
-/

namespace Prefixed

open BigEndian

/-- Takes a value off the front of a byte sequence. -/
abbrev Reader (α : Type) := StateT (List UInt8) Option α

variable {α β : Type}

/-- The next bytes, so many of them. -/
def bytes (n : ℕ) : Reader (List UInt8) := fun input =>
  if n ≤ input.length then some (input.take n, input.drop n) else none

/-- The value of bytes, most significant first. -/
def value (digits : List UInt8) : ℕ := digits.foldl (fun n digit => n * 256 + digit.toNat) 0

/-- A number of so many bytes. -/
def number (width : ℕ) : Reader ℕ := do
  let digits ← bytes width
  return value digits

/-- Bytes behind their length. -/
def vector (width : ℕ) : Reader (List UInt8) := do
  let length ← number width
  bytes length

/-- All of a byte sequence is read. -/
def whole (r : Reader α) (input : List UInt8) : Option α :=
  match r.run input with
  | some (a, []) => some a
  | _ => none

/-- What stands behind a length is read as a whole. -/
def within (width : ℕ) (read : List UInt8 → Option α) : Reader α := do
  let body ← vector width
  StateT.lift (read body)

/-- One value after the other, as long as there are bytes; at most so many. -/
def repeated (r : Reader α) : ℕ → List UInt8 → Option (List α)
  | _, [] => some []
  | 0, _ :: _ => none
  | n + 1, byte :: more => do
    let (a, rest) ← r.run (byte :: more)
    let later ← repeated r n rest
    return a :: later

/-- One value after the other, each of at least one byte. -/
def sequence (r : Reader α) (input : List UInt8) : Option (List α) := repeated r input.length input

/-- The value of a byte. -/
theorem value_byte (b : UInt8) : value [b] = b.toNat := by
  rw [value, List.foldl_cons, List.foldl_nil, Nat.zero_mul, Nat.zero_add]

/-- The value of the two bytes of a word. -/
theorem value_bytes16 (v : UInt16) : value (bytes16 v) = v.toNat := by
  rw [bytes16, value, List.foldl_cons, List.foldl_cons, List.foldl_nil, Nat.zero_mul, Nat.zero_add,
    hi_toNat, lo_toNat]
  omega

/-- The value of the four bytes of a double word. -/
theorem value_bytes32 (v : UInt32) : value (bytes32 v) = v.toNat := by
  have hjoined := join32_toNat (v >>> 24).toUInt8 (v >>> 16).toUInt8 (v >>> 8).toUInt8 v.toUInt8
  rw [bytes32, value, List.foldl_cons, List.foldl_cons, List.foldl_cons, List.foldl_cons,
    List.foldl_nil, Nat.zero_mul, Nat.zero_add, ← hjoined, join32_bytes32]

/-- A reader takes these bytes as that value, whatever stands behind them. -/
def Takes (r : Reader α) (front : List UInt8) (a : α) : Prop :=
  ∀ rest, r.run (front ++ rest) = some (a, rest)

/-- Nothing is taken for a value that is known. -/
theorem Takes.pure (a : α) : Takes (Pure.pure a) [] a := by
  intro rest
  rfl

/-- One reader after the other. -/
theorem Takes.bind {r : Reader α} {f : α → Reader β} {front later : List UInt8} {a : α} {b : β}
    (hfirst : Takes r front a) (hsecond : Takes (f a) later b) :
    Takes (r >>= f) (front ++ later) b := by
  intro rest
  rw [StateT.run_bind, List.append_assoc, hfirst]
  exact hsecond rest

/-- The last reader that takes something. -/
theorem Takes.last {r : Reader α} {f : α → Reader β} {front : List UInt8} {a : α} {b : β}
    (hlast : Takes r front a) (hnothing : Takes (f a) [] b) : Takes (r >>= f) front b := by
  have hall := hlast.bind hnothing
  rw [List.append_nil] at hall
  exact hall

/-- A condition that holds takes nothing. -/
theorem Takes.require {p : Prop} [Decidable p] (hp : p) {r : Reader α} {front : List UInt8} {a : α}
    (h : Takes r front a) : Takes (do guard p; r) front a := by
  intro rest
  simp only [guard, if_pos hp]
  exact h rest

/-- So many bytes. -/
theorem takes_bytes {n : ℕ} {body : List UInt8} (hlength : body.length = n) :
    Takes (bytes n) body body := by
  intro rest
  subst hlength
  have hfits : body.length ≤ (body ++ rest).length := by
    rw [List.length_append]
    exact Nat.le_add_right _ _
  change (if _ then _ else _) = _
  rw [if_pos hfits, List.take_left, List.drop_left]

theorem takes_number {width : ℕ} {digits : List UInt8} (hwidth : digits.length = width) :
    Takes (number width) digits (value digits) :=
  (takes_bytes hwidth).last (Takes.pure _)

/-- Bytes behind digits that tell how many they are. -/
theorem takes_vector {width : ℕ} {digits body : List UInt8} (hwidth : digits.length = width)
    (hvalue : value digits = body.length) : Takes (vector width) (digits ++ body) body := by
  apply (takes_number hwidth).bind
  rw [hvalue]
  exact takes_bytes rfl

theorem takes_within {width : ℕ} {digits body : List UInt8} {read : List UInt8 → Option α} {a : α}
    (hwidth : digits.length = width) (hvalue : value digits = body.length)
    (hread : read body = some a) : Takes (within width read) (digits ++ body) a := by
  apply (takes_vector hwidth hvalue).last
  intro rest
  rw [StateT.run_lift, hread]
  rfl

/-- What a reader takes is the whole, if nothing stands behind it. -/
theorem Takes.whole {r : Reader α} {front : List UInt8} {a : α} (h : Takes r front a) :
    whole r front = some a := by
  have hall := h []
  rw [List.append_nil] at hall
  rw [Prefixed.whole, hall]

/-- The parts of a sequence are read one after the other. -/
theorem repeated_flatMap {r : Reader α} {parts : List β} {encode : β → List UInt8} {f : β → α}
    (htakes : ∀ part ∈ parts, Takes r (encode part) (f part))
    (hbytes : ∀ part ∈ parts, encode part ≠ []) {n : ℕ} (hn : parts.length ≤ n) :
    repeated r n (parts.flatMap encode) = some (parts.map f) := by
  induction parts generalizing n with
  | nil => cases n <;> rfl
  | cons part parts ih =>
    rw [List.length_cons] at hn
    obtain ⟨n, rfl⟩ : ∃ m, n = m + 1 := Nat.exists_eq_succ_of_ne_zero (by omega)
    obtain ⟨hfirst, htakes⟩ := List.forall_mem_cons.mp htakes
    obtain ⟨hsome, hbytes⟩ := List.forall_mem_cons.mp hbytes
    have hlater := ih (n := n) htakes hbytes (by omega)
    obtain ⟨byte, more, hencode⟩ := List.exists_cons_of_ne_nil hsome
    rw [List.flatMap_cons, hencode, List.cons_append, repeated, ← List.cons_append, ← hencode,
      hfirst]
    change (repeated r n (parts.flatMap encode)).bind _ = _
    rw [hlater]
    rfl

/-- A sequence of parts that each take a byte or more. -/
theorem sequence_flatMap {r : Reader α} {parts : List β} {encode : β → List UInt8} {f : β → α}
    (htakes : ∀ part ∈ parts, Takes r (encode part) (f part))
    (hbytes : ∀ part ∈ parts, encode part ≠ []) :
    sequence r (parts.flatMap encode) = some (parts.map f) := by
  apply repeated_flatMap htakes hbytes
  rw [List.length_flatMap]
  have hcount := List.length_le_sum_of_one_le (parts.map fun part => (encode part).length)
  rw [List.length_map] at hcount
  apply hcount
  intro size hsize
  obtain ⟨part, hpart, rfl⟩ := List.mem_map.mp hsize
  exact List.length_pos_of_ne_nil (hbytes part hpart)

/-- Parts that stand beside the values that they are taken as. -/
theorem sequence_flatten {r : Reader α} {parts : List (List UInt8 × α)}
    (htakes : ∀ part ∈ parts, Takes r part.1 part.2) (hbytes : ∀ part ∈ parts, part.1 ≠ []) :
    sequence r (parts.map Prod.fst).flatten = some (parts.map Prod.snd) :=
  sequence_flatMap htakes hbytes

/-- Numbers of one width fill a sequence whose length is a multiple of it. -/
theorem exists_sequence_number {width n : ℕ} (hwidth : 0 < width) {input : List UInt8}
    (hlength : input.length = width * n) :
    ∃ numbers, sequence (number width) input = some numbers ∧ numbers.length = n := by
  obtain ⟨parts, hparts, hcount, rfl⟩ : ∃ parts : List (List UInt8),
      (∀ part ∈ parts, part.length = width) ∧ parts.length = n ∧ parts.flatten = input := by
    induction n generalizing input with
    | zero =>
      rw [Nat.mul_zero] at hlength
      exact ⟨[], by simp, rfl, (List.eq_nil_of_length_eq_zero hlength).symm⟩
    | succ n ih =>
      rw [Nat.mul_succ] at hlength
      have htail : (input.drop width).length = width * n := by
        rw [List.length_drop, hlength, Nat.add_sub_cancel]
      obtain ⟨parts, hparts, hcount, hflatten⟩ := ih htail
      refine ⟨input.take width :: parts, ?_, by rw [List.length_cons, hcount], ?_⟩
      · intro part hpart
        obtain rfl | hpart := List.mem_cons.mp hpart
        · rw [List.length_take, hlength]
          omega
        · exact hparts part hpart
      · rw [List.flatten_cons, hflatten, List.take_append_drop]
  refine ⟨parts.map value, ?_, by rw [List.length_map, hcount]⟩
  rw [← List.flatMap_id]
  apply sequence_flatMap
  · intro part hpart
    exact takes_number (hparts part hpart)
  · intro part hpart
    apply List.ne_nil_of_length_pos
    rw [id, hparts part hpart]
    exact hwidth

end Prefixed
