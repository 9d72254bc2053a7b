import QVPN.Lib.Memory

/-!
# Loops that stride through a buffer

A loop holds a position below a bound, reads what stands there, and either leaves or goes on by a
number of elements that it has read. It returns exactly when every position it visits lets it
decide, and none of them lets it go on by nothing. If what an iteration sees depends only on the
elements from its position on, this is a property of the elements alone: the loop cuts a part off
the front of them again and again, until nothing is left.
-/

namespace Strides

open Memory

section Loop

variable (stride : ℕ → Except Fault (Option ℕ)) (last : ℕ)

/-- The loop from a position on, for a number of iterations: where it leaves. -/
def run : ℕ → ℕ → Except Fault ℕ
  | 0, _ => .error .noReturn
  | fuel + 1, i =>
    if i < last then do
      match ← stride i with
      | some n => run fuel (i + n)
      | none => return i
    else return i

/-- The positions that the loop visits from a position on. -/
inductive Visits : ℕ → ℕ → Prop where
  | here (i : ℕ) : Visits i i
  | next {i n j : ℕ} (hi : i < last) (hstride : stride i = .ok (some n)) (hj : Visits (i + n) j) :
      Visits i j

/-- Every iteration decides what to do, and goes forward if it goes on. -/
def Progresses (i : ℕ) : Prop :=
  ∀ j, Visits stride last i j → j < last → ∃ decision, stride j = .ok decision ∧ decision ≠ some 0

variable {stride last}

/-- A loop that goes on by nothing does not return. -/
theorem run_of_zero {i : ℕ} (hi : i < last) (hzero : stride i = .ok (some 0)) (fuel e : ℕ) :
    run stride last fuel i ≠ .ok e := by
  induction fuel with
  | zero => exact fun h => nomatch h
  | succ fuel ih =>
    rw [run, if_pos hi, hzero]
    exact ih

/-- A loop that returns made progress in every iteration. -/
theorem progresses_of_run {fuel i e : ℕ} (h : run stride last fuel i = .ok e) :
    Progresses stride last i := by
  induction fuel generalizing i with
  | zero => cases h
  | succ fuel ih =>
    intro j hj hlt
    cases hj with
    | here =>
      have hrun := h
      rw [run, if_pos hlt] at h
      obtain ⟨decision, hdecision, -⟩ := bind_eq_ok_iff.mp h
      refine ⟨decision, hdecision, fun hzero => ?_⟩
      rw [hzero] at hdecision
      exact run_of_zero hlt hdecision _ _ hrun
    | next hi hstride hj =>
      rw [run, if_pos hi, hstride, ok_bind] at h
      exact ih h j hj hlt

/-- A loop that makes progress returns, after no more iterations than there are positions. -/
theorem run_of_progresses {fuel i : ℕ} (hfuel : last ≤ fuel + i) (h : Progresses stride last i) :
    ∃ e, run stride last (fuel + 1) i = .ok e := by
  induction fuel generalizing i with
  | zero =>
    rw [run, if_neg (by omega)]
    exact ⟨i, rfl⟩
  | succ fuel ih =>
    by_cases hi : i < last
    · obtain ⟨decision, hdecision, hpos⟩ := h i (.here i) hi
      rw [run, if_pos hi, hdecision, ok_bind]
      cases decision with
      | none => exact ⟨i, rfl⟩
      | some n =>
        have hn : n ≠ 0 := fun hzero => hpos (congrArg some hzero)
        exact ih (by omega) fun j hj => h j (.next hi hdecision hj)
    · rw [run, if_neg hi]
      exact ⟨i, rfl⟩

/-- The loop returns exactly when it makes progress. -/
theorem exists_run_iff {i : ℕ} :
    (∃ fuel e, run stride last fuel i = .ok e) ↔ Progresses stride last i := by
  constructor
  · intro ⟨fuel, e, h⟩
    exact progresses_of_run h
  · intro h
    have hfuel : last ≤ last + i := Nat.le_add_right _ _
    obtain ⟨e, he⟩ := run_of_progresses hfuel h
    exact ⟨_, e, he⟩

/-- The loop leaves at a visited position that says so. -/
theorem Visits.run_eq {i j fuel e : ℕ} (hij : Visits stride last i j) (hj : j < last)
    (hleave : stride j = .ok none) (h : Strides.run stride last fuel i = .ok e) : e = j := by
  induction hij generalizing fuel with
  | here =>
    cases fuel with
    | zero => cases h
    | succ fuel =>
      rw [Strides.run, if_pos hj, hleave] at h
      exact (Except.ok.inj h).symm
  | next hi hstride _ ih =>
    cases fuel with
    | zero => cases h
    | succ fuel =>
      rw [Strides.run, if_pos hi, hstride, ok_bind] at h
      exact ih hj hleave h

/-- With enough iterations the loop gets to a visited position that says to leave. -/
theorem Visits.exists_run {i j : ℕ} (hij : Visits stride last i j) (hj : j < last)
    (hleave : stride j = .ok none) : ∃ fuel, Strides.run stride last fuel i = .ok j := by
  induction hij with
  | here =>
    refine ⟨1, ?_⟩
    rw [Strides.run, if_pos hj, hleave]
    rfl
  | next hi hstride _ ih =>
    obtain ⟨fuel, hfuel⟩ := ih hj hleave
    refine ⟨fuel + 1, ?_⟩
    rw [Strides.run, if_pos hi, hstride, ok_bind]
    exact hfuel

/-- A visited position is not before the first. -/
theorem Visits.le {i j : ℕ} (hij : Visits stride last i j) : i ≤ j := by
  induction hij with
  | here => exact Nat.le_refl _
  | next _ _ _ ih => omega

/-- A loop that ends earlier visits nothing else. -/
theorem Visits.mono {last' i j : ℕ} (hlast : last' ≤ last) (hij : Visits stride last' i j) :
    Visits stride last i j := by
  induction hij with
  | here => exact .here _
  | next hi hstride _ ih => exact .next (Nat.lt_of_lt_of_le hi hlast) hstride ih

/-- A loop that makes progress does so if it ends earlier. -/
theorem Progresses.mono {last' i : ℕ} (hlast : last' ≤ last) (h : Progresses stride last i) :
    Progresses stride last' i :=
  fun j hj hlt => h j (hj.mono hlast) (Nat.lt_of_lt_of_le hlt hlast)

variable {stride' : ℕ → Except Fault (Option ℕ)}

/-- A loop that decides wherever another one does, and alike, visits what the other one visits. -/
theorem Visits.of_agree (hagree : ∀ i d, stride i = .ok d → stride' i = .ok d) {i j : ℕ}
    (hij : Visits stride last i j) : Visits stride' last i j := by
  induction hij with
  | here => exact .here _
  | next hi hstride _ ih => exact .next hi (hagree _ _ hstride) ih

/-- If the other one makes progress it visits nothing else. -/
theorem Progresses.visits (hagree : ∀ i d, stride i = .ok d → stride' i = .ok d) {i j : ℕ}
    (h : Progresses stride last i) (hij : Visits stride' last i j) : Visits stride last i j := by
  induction hij with
  | here => exact .here _
  | @next i n _ hi hstride' _ ih =>
    obtain ⟨decision, hdecision, -⟩ := h i (.here i) hi
    have hstride : stride i = .ok (some n) := by
      rw [hdecision, ← hstride', hagree i decision hdecision]
    exact .next hi hstride (ih fun k hk => h k (.next hi hstride hk))

end Loop

section Parts

universe u

variable {α : Type u} (head : ℕ → List α → Except Fault (Option ℕ))

/-- Parts can be cut off the front until nothing is left of the size, or until the head says to
leave. What the head sees is how much is left of the size, and the elements. -/
inductive Divisible : ℕ → List α → Prop where
  | done (xs : List α) : Divisible 0 xs
  | leave {size : ℕ} {xs : List α} (h : head size xs = .ok none) : Divisible size xs
  | cut {size n : ℕ} {xs : List α} (h : head size xs = .ok (some n)) (hn : n ≠ 0)
      (hrest : Divisible (size - n) (xs.drop n)) : Divisible size xs

variable {head} {stride : ℕ → Except Fault (Option ℕ)} {last : ℕ} {mem : List α}

/-- A loop over divisible elements makes progress. -/
theorem Divisible.progresses (hhead : ∀ i < last, stride i = head (last - i) (mem.drop i)) {i : ℕ}
    (h : Divisible head (last - i) (mem.drop i)) : Progresses stride last i := by
  generalize hsize : last - i = size at h
  generalize hxs : mem.drop i = xs at h
  induction h generalizing i with
  | done =>
    intro j hj hlt
    cases hj with
    | here => omega
    | next hi => omega
  | leave hleave =>
    intro j hj hlt
    cases hj with
    | here => exact ⟨none, by rw [hhead i hlt, hsize, hxs, hleave], nofun⟩
    | next hi hstride =>
      rw [hhead i hi, hsize, hxs, hleave] at hstride
      cases hstride
  | @cut size n xs hcut hn _ ih =>
    intro j hj hlt
    cases hj with
    | here =>
      refine ⟨some n, by rw [hhead i hlt, hsize, hxs, hcut], ?_⟩
      exact fun hzero => hn (Option.some.inj hzero)
    | next hi hstride hj =>
      rw [hhead i hi, hsize, hxs, hcut] at hstride
      cases hstride
      exact ih (by omega) (by rw [← hxs, List.drop_drop]) j hj hlt

/-- The elements of a loop that makes progress are divisible. -/
theorem Progresses.divisible (hhead : ∀ i < last, stride i = head (last - i) (mem.drop i)) {i : ℕ}
    (h : Progresses stride last i) : Divisible head (last - i) (mem.drop i) := by
  induction hleft : last - i using Nat.strongRecOn generalizing i with
  | ind left ih =>
    by_cases hi : i < last
    · obtain ⟨decision, hdecision, hpos⟩ := h i (.here i) hi
      have hseen : head left (mem.drop i) = .ok decision := by
        rw [← hleft, ← hhead i hi, hdecision]
      cases decision with
      | none => exact .leave hseen
      | some n =>
        have hn : n ≠ 0 := fun hzero => hpos (congrArg some hzero)
        refine .cut hseen hn ?_
        rw [List.drop_drop]
        exact ih (left - n) (by omega) (fun j hj => h j (.next hi hdecision hj)) (by omega)
    · rw [show left = 0 by omega]
      exact .done _

/-- A loop makes progress exactly when its elements are divisible. -/
theorem progresses_iff_divisible (hhead : ∀ i < last, stride i = head (last - i) (mem.drop i))
    {i : ℕ} : Progresses stride last i ↔ Divisible head (last - i) (mem.drop i) :=
  ⟨Progresses.divisible hhead, Divisible.progresses hhead⟩

end Parts

end Strides
