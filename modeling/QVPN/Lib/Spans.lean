import QVPN.Lib.Fragments
import QVPN.Lib.Memory

/-!
# Where consecutive parts lie

A string that is the concatenation of its parts holds each of them in the range that begins where
the parts before it end. A walk that reads the length of each part at its beginning finds these
ranges.
-/

namespace Fragments

open Memory

variable {α : Type}

/-- The ranges of consecutive parts, from a position on. -/
def spans : ℕ → List (List α) → List (ℕ × ℕ)
  | _, [] => []
  | pos, part :: parts => (pos, pos + part.length) :: spans (pos + part.length) parts

@[simp] theorem spans_length (pos : ℕ) (parts : List (List α)) :
    (spans pos parts).length = parts.length := by
  induction parts generalizing pos with
  | nil => rfl
  | cons part parts ih => rw [spans, List.length_cons, List.length_cons, ih]

/-- The range of a part begins where the part begins in the whole string. -/
theorem spans_getElem? (pos : ℕ) (parts : List (List α)) (i : ℕ) :
    (spans pos parts)[i]? =
      parts[i]?.map fun part => (pos + start parts i, pos + start parts i + part.length) := by
  induction parts generalizing pos i with
  | nil => simp [spans]
  | cons part parts ih =>
    cases i with
    | zero => simp [spans, start]
    | succ i =>
      rw [spans, List.getElem?_cons_succ, List.getElem?_cons_succ, ih]
      simp only [start, List.take_succ_cons, List.flatten_cons, List.length_append, Nat.add_assoc]

/-- A range of a part ends inside the string. -/
theorem spans_le {pos : ℕ} {parts : List (List α)} {r : ℕ × ℕ} (h : r ∈ spans pos parts) :
    r.1 ≤ r.2 ∧ r.2 ≤ pos + parts.flatten.length := by
  induction parts generalizing pos with
  | nil => cases h
  | cons part parts ih =>
    rw [List.flatten_cons, List.length_append]
    cases h with
    | head => exact ⟨by simp, by simp⟩
    | tail _ h =>
      have hle := ih h
      exact ⟨hle.1, by omega⟩

/-- The ranges hold the parts, whatever stands in front of them. -/
theorem mapM_slice_spans (before : List α) (parts : List (List α)) :
    (spans before.length parts).mapM (fun r => slice (before ++ parts.flatten) r.1 r.2) =
      .ok parts := by
  induction parts generalizing before with
  | nil => rfl
  | cons part parts ih =>
    have hpart : slice (before ++ (part ++ parts.flatten)) before.length
        ((before.length + part.length : ℕ) : ℤ) = .ok part := by
      rw [← List.append_assoc]
      exact slice_append _ _ _ _ _ rfl (by omega)
    have hrest := ih (before ++ part)
    rw [List.length_append, List.append_assoc] at hrest
    rw [spans, List.mapM_cons, List.flatten_cons, hpart, ok_bind, hrest]
    rfl

/-- The ranges of fields that follow each other from a position on, counted from the first byte.
Each field is as long as its reader finds at its beginning. -/
def walk (mem : List α) (first : ℕ) :
    ℕ → List (List α → ℕ → Except Fault ℕ) → Except Fault (List (ℕ × ℕ))
  | _, [] => .ok []
  | pos, reader :: readers => do
    let length ← reader mem (first + pos)
    let ranges ← walk mem first (pos + length) readers
    return (pos, pos + length) :: ranges

/-- A reader finds the length of a part wherever the part stands. -/
def Measures (reader : List α → ℕ → Except Fault ℕ) (part : List α) : Prop :=
  ∀ before after, reader (before ++ part ++ after) before.length = .ok part.length

/-- The walk over measured parts finds their ranges, and goes on behind them. -/
theorem walk_measured {readers : List (List α → ℕ → Except Fault ℕ)} {parts : List (List α)}
    (h : List.Forall₂ Measures readers parts) (more : List (List α → ℕ → Except Fault ℕ))
    (front before after : List α) {mem : List α}
    (hmem : mem = front ++ before ++ parts.flatten ++ after) :
    walk mem front.length before.length (readers ++ more) =
      (spans before.length parts ++ ·) <$>
        walk mem front.length (before.length + parts.flatten.length) more := by
  induction h generalizing before with
  | nil =>
    rw [List.flatten_nil, List.length_nil, Nat.add_zero, List.nil_append]
    exact (id_map _).symm
  | @cons reader part readers parts hpart _ ih =>
    have hread : reader mem (front.length + before.length) = .ok part.length := by
      have hlayout : mem = front ++ before ++ part ++ (parts.flatten ++ after) := by
        rw [hmem, List.flatten_cons]
        simp only [List.append_assoc]
      rw [hlayout, ← List.length_append]
      exact hpart _ _
    have hrest := ih (before ++ part) (by
      rw [hmem, List.flatten_cons]
      simp only [List.append_assoc])
    rw [List.length_append] at hrest
    rw [List.cons_append, walk, hread, ok_bind, hrest, List.flatten_cons, List.length_append,
      ← Nat.add_assoc, spans]
    cases walk mem front.length (before.length + part.length + parts.flatten.length) more <;> rfl

/-- A part is the slice at its range. -/
theorem slice_start {parts : List (List α)} {i : ℕ} {part : List α} (h : parts[i]? = some part) :
    slice parts.flatten (start parts i) (start parts i + part.length) = .ok part := by
  obtain ⟨hi, hget⟩ := List.getElem?_eq_some_iff.mp h
  have hsplit : parts.flatten =
      (parts.take i).flatten ++ part ++ (parts.drop (i + 1)).flatten := by
    conv_lhs => rw [← List.take_append_drop i parts, List.drop_eq_getElem_cons hi, hget]
    rw [List.flatten_append, List.flatten_cons, List.append_assoc]
  rw [hsplit]
  exact slice_append _ _ _ _ _ rfl rfl

end Fragments
