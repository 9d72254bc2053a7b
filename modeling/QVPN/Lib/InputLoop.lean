import QVPN.Lib.Memory

/-!
# Loops over a sequence of inputs

A loop checks its condition, takes the next input and changes its state. With enough fuel it
returns after a number of rounds exactly when its condition holds in front of each of them and
no longer holds behind the last. What happens to the state is described without the condition.
-/

namespace InputLoop

open Memory

variable {σ α : Type} (continues : σ → Bool) (step : σ → α → Except Fault σ) (inputs : ℕ → α)

/-- The state behind a number of inputs, whatever the condition says. -/
def after (s : σ) : ℕ → Except Fault σ
  | 0 => .ok s
  | n + 1 => do
    let t ← after s n
    step t (inputs n)

/-- The loop from an input on, for a number of rounds: the last state, and the inputs taken. -/
def run : ℕ → ℕ → σ → Except Fault (σ × ℕ)
  | 0, _, _ => .error .noReturn
  | fuel + 1, i, s =>
    if continues s then do
      let t ← step s (inputs i)
      run fuel (i + 1) t
    else .ok (s, i)

/-- With some fuel the loop takes so many inputs. -/
def Returns (s t : σ) (n : ℕ) : Prop := ∃ fuel, run continues step inputs fuel 0 s = .ok (t, n)

variable {continues step inputs}

theorem after_succ {s t : σ} {n : ℕ} (h : after step inputs s n = .ok t) :
    after step inputs s (n + 1) = step t (inputs n) := by
  rw [after, h, ok_bind]

/-- What is reached after some inputs has been reached through all shorter sequences. -/
theorem after_of_le {s t : σ} {m n : ℕ} (hmn : m ≤ n) (h : after step inputs s n = .ok t) :
    ∃ u, after step inputs s m = .ok u := by
  induction hmn generalizing t with
  | refl => exact ⟨t, h⟩
  | step hle ih =>
    obtain ⟨u, hu, -⟩ := bind_eq_ok_iff.mp h
    exact ih hu

/-- A loop that returns has gone on until then. -/
theorem run_spec {s₀ s t : σ} {fuel i n : ℕ} (hs : after step inputs s₀ i = .ok s)
    (h : run continues step inputs fuel i s = .ok (t, n)) :
    i ≤ n ∧ after step inputs s₀ n = .ok t ∧ continues t = false ∧
      ∀ m, i ≤ m → m < n → ∃ u, after step inputs s₀ m = .ok u ∧ continues u = true := by
  induction fuel generalizing i s with
  | zero => cases h
  | succ fuel ih =>
    rw [run] at h
    by_cases hgo : continues s = true
    · rw [if_pos hgo] at h
      obtain ⟨u, hu, h⟩ := bind_eq_ok_iff.mp h
      obtain ⟨hle, hend, hstop, hall⟩ := ih ((after_succ hs).trans hu) h
      refine ⟨by omega, hend, hstop, ?_⟩
      intro m him hmn
      rcases Nat.eq_or_lt_of_le him with rfl | hlt
      · exact ⟨s, hs, hgo⟩
      · exact hall m hlt hmn
    · rw [if_neg hgo] at h
      cases h
      refine ⟨Nat.le_refl _, hs, Bool.eq_false_iff.mpr hgo, ?_⟩
      intro m him hmi
      exact absurd him (by omega)

/-- A loop whose condition holds up to some input takes as many inputs as that. -/
theorem run_of_continues {s₀ t : σ} {n : ℕ} (hend : after step inputs s₀ n = .ok t)
    (hstop : continues t = false) (k : ℕ) : k ≤ n →
    (∀ m, n - k ≤ m → m < n → ∃ u, after step inputs s₀ m = .ok u ∧ continues u = true) →
    ∃ s, after step inputs s₀ (n - k) = .ok s ∧
      run continues step inputs (k + 1) (n - k) s = .ok (t, n) := by
  induction k with
  | zero =>
    intro _ _
    refine ⟨t, hend, ?_⟩
    rw [run, if_neg (by rw [hstop]; decide)]
    rfl
  | succ k ih =>
    intro hk hall
    obtain ⟨s, hs, hgo⟩ := hall (n - (k + 1)) (Nat.le_refl _) (by omega)
    obtain ⟨u, hu, hrun⟩ := ih (by omega) fun m hm hmn => hall m (by omega) hmn
    have hnext : n - k = n - (k + 1) + 1 := by omega
    rw [hnext, after_succ hs] at hu
    rw [hnext] at hrun
    refine ⟨s, hs, ?_⟩
    rw [run, if_pos hgo, hu, ok_bind, hrun]

/-- More fuel does not change what a loop returns. -/
theorem run_mono {s : σ} {r : σ × ℕ} {fuel fuel' i : ℕ} (hle : fuel ≤ fuel')
    (h : run continues step inputs fuel i s = .ok r) :
    run continues step inputs fuel' i s = .ok r := by
  induction fuel generalizing fuel' i s with
  | zero => cases h
  | succ fuel ih =>
    obtain ⟨more, rfl⟩ := Nat.exists_eq_add_of_le' (show 1 ≤ fuel' by omega)
    rw [run] at h ⊢
    by_cases hgo : continues s = true
    · rw [if_pos hgo] at h ⊢
      obtain ⟨t, ht, h⟩ := bind_eq_ok_iff.mp h
      rw [ht, ok_bind]
      exact ih (by omega) h
    · rw [if_neg hgo] at h ⊢
      exact h

/-- The loop returns where its condition fails for the first time. -/
theorem returns_iff {s t : σ} {n : ℕ} : Returns continues step inputs s t n ↔
    after step inputs s n = .ok t ∧ continues t = false ∧
      ∀ m < n, ∃ u, after step inputs s m = .ok u ∧ continues u = true := by
  constructor
  · rintro ⟨fuel, h⟩
    obtain ⟨-, hend, hstop, hall⟩ := run_spec rfl h
    exact ⟨hend, hstop, fun m => hall m (Nat.zero_le m)⟩
  · rintro ⟨hend, hstop, hall⟩
    obtain ⟨u, hu, hrun⟩ := run_of_continues hend hstop n (Nat.le_refl n) fun m _ => hall m
    rw [Nat.sub_self] at hu hrun
    cases hu
    exact ⟨n + 1, hrun⟩

end InputLoop
