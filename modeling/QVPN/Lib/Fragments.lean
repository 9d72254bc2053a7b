import Mathlib.Data.List.Basic
import Mathlib.Data.List.Induction
import Mathlib.Data.List.Perm.Subperm
import Mathlib.Data.List.GetD
import Mathlib.Data.List.Nodup
import Mathlib.Data.List.TakeDrop
import Mathlib.Logic.Function.Basic

/-!
# Strings cut into parts, partly present

A string cut into contiguous parts is rebuilt from parts that arrive in any order. The bytes
present at any time are the parts present, concatenated in the order of the string. Adding a
part inserts it behind the present parts that precede it, and the string is complete exactly
when all its parts are present.
-/

namespace Fragments

variable {α : Type*}

/-- The concatenation of the parts that are present. -/
def gather : List (List α) → (ℕ → Bool) → List α
  | [], _ => []
  | part :: rest, present =>
    (if present 0 then part else []) ++ gather rest (fun i => present (i + 1))

/-- Where a part begins among the bytes present. -/
def place (parts : List (List α)) (present : ℕ → Bool) (i : ℕ) : ℕ :=
  (gather (parts.take i) present).length

/-- Where a part begins in the whole string. -/
def start (parts : List (List α)) (i : ℕ) : ℕ := (parts.take i).flatten.length

/-- Only the presence of existing parts matters. -/
theorem gather_congr {parts : List (List α)} {D E : ℕ → Bool}
    (h : ∀ i < parts.length, D i = E i) : gather parts D = gather parts E := by
  induction parts generalizing D E with
  | nil => rfl
  | cons part rest ih =>
    rw [gather, gather, h 0 (by simp)]
    rw [ih fun i hi => h (i + 1) (by simpa using hi)]

/-- The parts of a concatenation are those of its two sides. -/
theorem gather_append (left right : List (List α)) (D : ℕ → Bool) :
    gather (left ++ right) D = gather left D ++ gather right (fun i => D (left.length + i)) := by
  induction left generalizing D with
  | nil => simp [gather]
  | cons part rest ih =>
    rw [List.cons_append, gather, gather, ih, List.append_assoc]
    simp only [List.length_cons, Nat.add_right_comm]

/-- Nothing is present without parts. -/
theorem gather_none (parts : List (List α)) {D : ℕ → Bool} (h : ∀ i < parts.length, D i = false) :
    gather parts D = [] := by
  induction parts generalizing D with
  | nil => rfl
  | cons part rest ih =>
    rw [gather, h 0 (by simp), ih fun i hi => h (i + 1) (by simpa using hi)]
    rfl

/-- With all parts present the string is complete. -/
theorem gather_all {parts : List (List α)} {D : ℕ → Bool} (h : ∀ i < parts.length, D i = true) :
    gather parts D = parts.flatten := by
  induction parts generalizing D with
  | nil => rfl
  | cons part rest ih =>
    rw [gather, h 0 (by simp), ih fun i hi => h (i + 1) (by simpa using hi)]
    rfl

/-- No more bytes are present than the string has. -/
theorem gather_length_le (parts : List (List α)) (D : ℕ → Bool) :
    (gather parts D).length ≤ parts.flatten.length := by
  induction parts generalizing D with
  | nil => simp [gather]
  | cons part rest ih =>
    have := ih fun i => D (i + 1)
    rw [gather, List.flatten_cons, List.length_append, List.length_append]
    split
    · omega
    · simp only [List.length_nil]
      omega

/-- Without empty parts, a missing part shows in the number of bytes present. -/
theorem gather_length_eq_iff {parts : List (List α)} (hne : ∀ part ∈ parts, part ≠ [])
    (D : ℕ → Bool) :
    (gather parts D).length = parts.flatten.length ↔ ∀ i < parts.length, D i = true := by
  constructor
  · induction parts generalizing D with
    | nil => simp
    | cons part rest ih =>
      intro hlen i hi
      have hpart : 0 < part.length := List.length_pos_iff.mpr (hne part (by simp))
      have hrest := gather_length_le rest fun i => D (i + 1)
      rw [gather, List.flatten_cons, List.length_append, List.length_append] at hlen
      by_cases h0 : D 0
      · rw [if_pos h0] at hlen
        cases i with
        | zero => exact h0
        | succ i =>
          exact ih (fun p hp => hne p (by simp [hp])) (fun i => D (i + 1)) (by omega) i
            (by simpa using hi)
      · rw [if_neg h0] at hlen
        simp only [List.length_nil] at hlen
        omega
  · intro h
    rw [gather_all h]

/-- Adding a part inserts its bytes at its place. -/
theorem gather_update {parts : List (List α)} {D : ℕ → Bool} {i : ℕ} (hi : i < parts.length)
    (hD : D i = false) :
    gather parts (Function.update D i true) =
      (gather parts D).take (place parts D i) ++ parts[i] ++
        (gather parts D).drop (place parts D i) := by
  have hlen : (parts.take i).length = i := by simp; omega
  have hsplit : parts = parts.take i ++ parts[i] :: parts.drop (i + 1) := by simp
  have hold : gather parts D = gather (parts.take i) D ++
      gather (parts.drop (i + 1)) (fun j => D (i + (j + 1))) := by
    conv_lhs => rw [hsplit]
    rw [gather_append, gather, hlen, Nat.add_zero, hD]
    rfl
  have hnew : gather parts (Function.update D i true) = gather (parts.take i) D ++
      (parts[i] ++ gather (parts.drop (i + 1)) (fun j => D (i + (j + 1)))) := by
    conv_lhs => rw [hsplit]
    rw [gather_append, gather, hlen, Nat.add_zero, Function.update_self]
    congr 1
    · exact gather_congr fun j hj => Function.update_of_ne (by omega) _ _
    · simp only [if_true]
      congr 1
      exact gather_congr fun j _ => Function.update_of_ne (by omega) _ _
  rw [hnew, hold, place, List.take_left, List.drop_left, List.append_assoc]

/-- Marking one more part as present. -/
theorem mem_concat_eq_update (order : List ℕ) (i : ℕ) :
    (fun j => decide (j ∈ order ++ [i])) =
      Function.update (fun j => decide (j ∈ order)) i true := by
  funext j
  by_cases hj : j = i
  · simp [hj]
  · simp [hj]

/-- Whatever the order of arrival, the bytes present are those of the parts that arrived. -/
theorem flatMap_perm_gather {parts : List (List α)} {order : List ℕ} (hnodup : order.Nodup)
    (hbound : ∀ i ∈ order, i < parts.length) :
    (order.flatMap fun i => parts.getD i []).Perm
      (gather parts fun j => decide (j ∈ order)) := by
  induction order using List.reverseRecOn with
  | nil => rw [gather_none parts (by simp)]; exact List.Perm.refl _
  | append_singleton rest i ih =>
    have hi : i < parts.length := hbound i (by simp)
    have hnot : i ∉ rest := fun h => (List.nodup_append.mp hnodup).2.2 i h i (by simp) rfl
    have hrest := ih (hnodup.sublist (by simp)) fun j hj => hbound j (by simp [hj])
    rw [mem_concat_eq_update, gather_update hi (by simpa using hnot), List.flatMap_append,
      List.flatMap_cons, List.flatMap_nil, List.append_nil, List.getD_eq_getElem _ _ hi]
    refine (hrest.append_right _).trans ?_
    conv_lhs => rw [← List.take_append_drop
      (place parts (fun j => decide (j ∈ rest)) i) (gather parts fun j => decide (j ∈ rest))]
    rw [List.append_assoc, List.append_assoc]
    exact List.Perm.append_left _ List.perm_append_comm

/-- Distinct parts are all of them as soon as they are as many. -/
theorem forall_mem_iff_length {n : ℕ} {order : List ℕ} (hnodup : order.Nodup)
    (hbound : ∀ i ∈ order, i < n) : (∀ i < n, i ∈ order) ↔ order.length = n := by
  have hsub : order.Subperm (List.range n) :=
    List.Nodup.subperm hnodup fun i hi => List.mem_range.mpr (hbound i hi)
  constructor
  · intro h
    have hback : (List.range n).Subperm order :=
      List.Nodup.subperm List.nodup_range fun i hi => h i (List.mem_range.mp hi)
    have := hsub.length_le
    have := hback.length_le
    simp only [List.length_range] at *
    omega
  · intro h i hi
    have hperm := hsub.perm_of_length_le (by simp [h])
    exact hperm.mem_iff.mpr (List.mem_range.mpr hi)

end Fragments
