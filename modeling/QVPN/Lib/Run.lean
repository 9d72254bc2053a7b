import Mathlib.Logic.Relation
import Mathlib.Data.List.Infix
import Mathlib.Data.List.Nodup
import Mathlib.Logic.Function.Iterate

/-!
# Runs of a guarded transition system

A system takes one action after the other. A guard restricts the actions that are taken in
a state; a run is guarded when every one of its steps meets the guard in the state it starts
from. What every guarded step preserves holds in every state a guarded run reaches.

A deterministic system folds a list of actions. If a step from a good state leads to a good state
exactly when it meets the guard, all states along the list are good exactly when all its steps
meet the guard. The states that a single step draws one after the other are distinct until the step
stands still.
-/

namespace Run

variable {σ α : Type*}

/-- One step by some action that meets the guard. -/
def Guarded (step : σ → α → σ → Prop) (guard : σ → α → Prop) (s s' : σ) : Prop :=
  ∃ a, guard s a ∧ step s a s'

/-- The states that guarded runs from an initial state reach. -/
def Reaches (step : σ → α → σ → Prop) (guard : σ → α → Prop) : σ → σ → Prop :=
  Relation.ReflTransGen (Guarded step guard)

/-- The induction rule for guarded runs. -/
theorem Reaches.invariant {step : σ → α → σ → Prop} {guard : σ → α → Prop} {inv : σ → Prop}
    {s s' : σ} (hrun : Reaches step guard s s') (hinit : inv s)
    (hstep : ∀ t a t', inv t → guard t a → step t a t' → inv t') : inv s' := by
  induction hrun with
  | refl => exact hinit
  | tail _ hlast ih =>
    obtain ⟨a, hguard, hnext⟩ := hlast
    exact hstep _ a _ ih hguard hnext

/-- A run extended by one guarded step. -/
theorem Reaches.step {step : σ → α → σ → Prop} {guard : σ → α → Prop} {s t t' : σ} {a : α}
    (hrun : Reaches step guard s t) (hguard : guard t a) (hnext : step t a t') :
    Reaches step guard s t' :=
  Relation.ReflTransGen.tail hrun ⟨a, hguard, hnext⟩

/-- Two runs one after the other. -/
theorem Reaches.trans {step : σ → α → σ → Prop} {guard : σ → α → Prop} {s t u : σ}
    (hfirst : Reaches step guard s t) (hsecond : Reaches step guard t u) : Reaches step guard s u :=
  Relation.ReflTransGen.trans hfirst hsecond

/-- A weaker guard permits the same run. -/
theorem Reaches.mono {step : σ → α → σ → Prop} {guard guard' : σ → α → Prop} {s s' : σ}
    (hrun : Reaches step guard s s') (hguard : ∀ t a, guard t a → guard' t a) :
    Reaches step guard' s s' := by
  apply Relation.ReflTransGen.mono _ _ _ hrun
  rintro t t' ⟨a, ha, hnext⟩
  exact ⟨a, hguard t a ha, hnext⟩

/-- A run of no steps. -/
theorem Reaches.refl {step : σ → α → σ → Prop} {guard : σ → α → Prop} (s : σ) :
    Reaches step guard s s :=
  Relation.ReflTransGen.refl

/-- All states along a list of actions are good exactly when every action meets the guard in the
state before it. -/
theorem forall_prefix_iff {step : σ → α → σ} {inv : σ → Prop} {guard : σ → α → Prop} {s : σ}
    (hstep : ∀ t a, inv t → (inv (step t a) ↔ guard t a)) (hinit : inv s) (actions : List α) :
    (∀ done, done <+: actions → inv (done.foldl step s)) ↔
      ∀ done a, done ++ [a] <+: actions → guard (done.foldl step s) a := by
  constructor
  · intro hinv done a hbegins
    have hbefore := hinv done ((List.prefix_append done [a]).trans hbegins)
    have hafter := hinv (done ++ [a]) hbegins
    rw [List.foldl_append, List.foldl_cons, List.foldl_nil] at hafter
    exact (hstep _ a hbefore).mp hafter
  · intro hguard done hbegins
    induction done using List.reverseRecOn with
    | nil => exact hinit
    | append_singleton done a ih =>
      have hbefore := ih ((List.prefix_append done [a]).trans hbegins)
      rw [List.foldl_append, List.foldl_cons, List.foldl_nil]
      exact (hstep _ a hbefore).mpr (hguard done a hbegins)

/-- The first `m` states that a step draws are distinct and it keeps the last of them: then a
sequence of draws has no repetition exactly when it is not longer than `m`. -/
theorem nodup_draws_iff {f : σ → σ} {s : σ} {m : ℕ} (hm : 0 < m)
    (hdistinct : ∀ i j, 0 < i → i < j → j ≤ m → f^[i] s ≠ f^[j] s) (hkept : f (f^[m] s) = f^[m] s)
    (n : ℕ) : ((List.range n).map fun k => f^[k + 1] s).Nodup ↔ n ≤ m := by
  rw [List.nodup_map_iff_inj_on List.nodup_range]
  constructor
  · intro hinjective
    by_contra hlong
    have hlast : m - 1 + 1 = m := by omega
    have hsame := hinjective (m - 1) (List.mem_range.mpr (by omega)) m
      (List.mem_range.mpr (by omega)) (by rw [hlast, Function.iterate_succ_apply', hkept])
    omega
  · intro hshort i hi j hj hsame
    rw [List.mem_range] at hi hj
    by_contra hne
    cases Nat.lt_or_gt_of_ne hne with
    | inl hlt => exact hdistinct (i + 1) (j + 1) (by omega) (by omega) (by omega) hsame
    | inr hgt => exact hdistinct (j + 1) (i + 1) (by omega) (by omega) (by omega) hsame.symm

end Run
