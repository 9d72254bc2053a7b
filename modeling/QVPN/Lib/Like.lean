import Mathlib.Data.List.Basic
import Mathlib.Data.List.Infix

/-!
# Wildcard patterns

Patterns over characters with one wildcard for any text and one for any single character. All
other characters stand for themselves up to a folding, such as that of letter case. A pattern
accepts itself as a text, and only a pattern without wildcards is confined to the texts that
fold to the same characters.
-/

namespace Like

universe u

variable {γ : Type u} [DecidableEq γ]

/-- The two wildcards and the folding under which the other characters are compared. -/
structure Wildcards (γ : Type u) where
  any : γ
  one : γ
  fold : γ → γ

/-- Match a text against a pattern from the left. -/
def accepts (w : Wildcards γ) : List γ → List γ → Bool
  | [], text => text.isEmpty
  | p :: ps, text =>
    if p = w.any then text.tails.any (accepts w ps)
    else text.head?.any (fun c => decide (p = w.one ∨ w.fold p = w.fold c)) &&
      accepts w ps text.tail

/-- The wildcard for any text takes whatever precedes what the rest of the pattern accepts. -/
theorem accepts_any {w : Wildcards γ} {ps text : List γ} (skipped : List γ)
    (h : accepts w ps text = true) : accepts w (w.any :: ps) (skipped ++ text) = true := by
  rw [accepts, if_pos rfl, List.any_eq_true]
  exact ⟨text, (List.mem_tails _ _).mpr (List.suffix_append skipped text), h⟩

/-- A character is accepted by the wildcard for one, and by every character that folds alike. -/
theorem accepts_cons {w : Wildcards γ} {p c : γ} {ps cs : List γ}
    (hhead : p = w.one ∨ w.fold p = w.fold c) (h : accepts w ps cs = true) :
    accepts w (p :: ps) (c :: cs) = true := by
  by_cases hany : p = w.any
  · subst hany
    exact accepts_any [c] h
  · rw [accepts, if_neg hany]
    simpa [h] using hhead

/-- A common prefix keeps a match. -/
theorem accepts_append {w : Wildcards γ} {ps cs : List γ} (pre : List γ)
    (h : accepts w ps cs = true) : accepts w (pre ++ ps) (pre ++ cs) = true := by
  induction pre with
  | nil => exact h
  | cons p pre ih => exact accepts_cons (Or.inr rfl) ih

/-- Every pattern accepts itself. -/
theorem accepts_self (w : Wildcards γ) (ps : List γ) : accepts w ps ps = true := by
  simpa using accepts_append ps (rfl : accepts w [] [] = true)

/-- Without wildcards a pattern accepts the texts that fold to the same characters. -/
theorem accepts_plain {w : Wildcards γ} {ps text : List γ}
    (hplain : ∀ p ∈ ps, p ≠ w.any ∧ p ≠ w.one) :
    accepts w ps text = true ↔ ps.map w.fold = text.map w.fold := by
  induction ps generalizing text with
  | nil => cases text <;> simp [accepts]
  | cons p ps ih =>
    obtain ⟨hany, hone⟩ := hplain p (List.mem_cons_self ..)
    have hrest := fun cs => @ih cs fun q hq => hplain q (List.mem_cons_of_mem _ hq)
    cases text with
    | nil => simp [accepts, hany]
    | cons c cs => simp [accepts, hany, hone, hrest]

end Like
