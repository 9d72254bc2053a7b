import QVPN.Lib.Memory
import Mathlib.Data.Set.Basic

/-!
# Equality operators on keys

An equality operator is code: it may leave a buffer, and nothing but its text makes it an
equivalence. What an associative container relies on is stated here for any operator and any hash
input, and derived from the one fact that makes it hold: that the operator decides equality.

The loop below compares two buffers as far as the left one reaches. It decides whether the left
buffer is a prefix of the right one, and faults when the right one ends first.
-/

namespace Memory

variable {α : Type} [DecidableEq α]

/-- Compare `n` elements of two buffers from a position on, and stop at the first difference. -/
def compareFrom (xs ys : List α) : ℕ → ℕ → Except Fault Bool
  | 0, _ => .ok true
  | n + 1, i => do
    let x ← readAt xs i
    let y ← readAt ys i
    if x ≠ y then return false else compareFrom xs ys n (i + 1)

/-- The comparison of what is left of two buffers behind parts of the same length. -/
theorem compareFrom_append (before before' xs ys : List α) (h : before.length = before'.length) :
    compareFrom (before ++ xs) (before' ++ ys) xs.length before.length =
      if xs <+: ys then .ok true else if ys <+: xs then .error .outOfBounds else .ok false := by
  induction xs generalizing before before' ys with
  | nil => rw [List.length_nil, compareFrom, if_pos List.nil_prefix]
  | cons x xs ih =>
    have hx : readAt (before ++ x :: xs) before.length = .ok x := readAt_append_right _ _ 0
    rw [List.length_cons, compareFrom, hx, ok_bind]
    cases ys with
    | nil =>
      have hend : readAt (before' ++ ([] : List α)) before.length = .error .outOfBounds := by
        rw [h]
        exact readAt_append_right before' [] 0
      rw [hend, error_bind, if_neg (by simp), if_pos List.nil_prefix]
    | cons y ys =>
      have hy : readAt (before' ++ y :: ys) before.length = .ok y := by
        rw [h]
        exact readAt_append_right before' (y :: ys) 0
      rw [hy, ok_bind]
      simp only [List.cons_prefix_cons]
      by_cases hxy : x = y
      · -- equal elements join the parts that are done with
        have hnext := ih (before ++ [x]) (before' ++ [y]) ys (by simp [h])
        simp only [List.append_assoc, List.singleton_append, List.length_append,
          List.length_singleton] at hnext
        rw [if_neg (not_not.mpr hxy), hnext]
        simp only [hxy, true_and]
      · rw [if_pos hxy, if_neg (fun hp => hxy hp.1), if_neg (fun hp => hxy hp.1.symm)]
        rfl

/-- Comparing two buffers as far as the left one reaches. -/
theorem compareFrom_eq (xs ys : List α) :
    compareFrom xs ys xs.length 0 =
      if xs <+: ys then .ok true else if ys <+: xs then .error .outOfBounds else .ok false :=
  compareFrom_append [] [] xs ys rfl

/-- The loop is legal and decides equality exactly on a pair of which neither is the beginning of
the other without being the other. -/
theorem compareFrom_eq_decide_iff (xs ys : List α) :
    compareFrom xs ys xs.length 0 = .ok (decide (xs = ys)) ↔
      (xs <+: ys → xs = ys) ∧ (ys <+: xs → ys = xs) := by
  rw [compareFrom_eq]
  by_cases hleft : xs <+: ys
  · rw [if_pos hleft, Except.ok.injEq, eq_comm, decide_eq_true_iff]
    constructor
    · intro heq
      exact ⟨fun _ => heq, fun _ => heq.symm⟩
    · intro h
      exact h.1 hleft
  · rw [if_neg hleft]
    have hne : xs ≠ ys := by
      rintro rfl
      exact hleft (List.prefix_refl _)
    by_cases hright : ys <+: xs
    · rw [if_pos hright]
      constructor
      · intro h
        cases h
      · intro h
        exact absurd (h.2 hright).symm hne
    · rw [if_neg hright, decide_eq_false hne]
      exact iff_of_true rfl ⟨fun h => absurd h hleft, fun h => absurd h hright⟩

/-- The short-circuit conjunction of two comparisons. -/
def andThen (x y : Except Fault Bool) : Except Fault Bool := do
  if ← x then y else return false

/-- The conjunction of comparisons that decide two conditions decides both. -/
theorem andThen_decide {p q : Prop} [Decidable p] [Decidable q] {y : Except Fault Bool}
    (hy : y = .ok (decide q)) : andThen (.ok (decide p)) y = .ok (decide (p ∧ q)) := by
  rw [andThen, ok_bind, hy]
  by_cases hp : p
  · simp [hp]
  · simp [hp]
    rfl

/-- What a container relies on for its keys: comparing them is legal and an equivalence, and equal
keys have the same hash input. -/
structure KeyLaws {κ : Type} {η : Type} (eq : κ → κ → Except Fault Bool) (hash : κ → η)
    (keys : Set κ) : Prop where
  legal : ∀ a ∈ keys, ∀ b ∈ keys, Legal (eq a b)
  refl : ∀ a ∈ keys, eq a a = .ok true
  symm : ∀ a ∈ keys, ∀ b ∈ keys, eq a b = .ok true → eq b a = .ok true
  trans : ∀ a ∈ keys, ∀ b ∈ keys, ∀ c ∈ keys, eq a b = .ok true → eq b c = .ok true →
    eq a c = .ok true
  hash : ∀ a ∈ keys, ∀ b ∈ keys, eq a b = .ok true → hash a = hash b

/-- An operator that decides equality of the keys keeps the laws, whatever the hash input is. -/
theorem KeyLaws.of_decides {κ : Type} [DecidableEq κ] {η : Type}
    {eq : κ → κ → Except Fault Bool} {keys : Set κ}
    (h : ∀ a ∈ keys, ∀ b ∈ keys, eq a b = .ok (decide (a = b))) (hash : κ → η) :
    KeyLaws eq hash keys := by
  have htrue : ∀ a ∈ keys, ∀ b ∈ keys, eq a b = .ok true ↔ a = b := by
    intro a ha b hb
    rw [h a ha b hb, Except.ok.injEq, decide_eq_true_iff]
  refine ⟨?_, ?_, ?_, ?_, ?_⟩
  · intro a ha b hb
    exact ⟨_, h a ha b hb⟩
  · intro a ha
    exact (htrue a ha a ha).mpr rfl
  · intro a ha b hb hab
    exact (htrue b hb a ha).mpr ((htrue a ha b hb).mp hab).symm
  · intro a ha b hb c hc hab hbc
    exact (htrue a ha c hc).mpr (((htrue a ha b hb).mp hab).trans ((htrue b hb c hc).mp hbc))
  · intro a ha b hb hab
    exact congrArg hash ((htrue a ha b hb).mp hab)

end Memory
