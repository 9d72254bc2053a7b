import Mathlib.Data.List.Basic
import Mathlib.Data.List.Infix

/-!
# Components of a text

A loop searches a text for a delimiter, cuts off what stands in front of it, and goes on one element
behind the beginning of the delimiter, until there is no delimiter left or enough components have
been cut off. For a delimiter of one element these are the first components of the text. A longer
delimiter leaves its end to the component behind it.
-/

namespace Components

universe u

variable {α : Type u}

/-- The delimiter stands between two components. -/
theorem infix_intercalate {delim : List α} {comps : List (List α)} (h : 2 ≤ comps.length) :
    delim <:+: delim.intercalate comps := by
  match comps, h with
  | c :: d :: rest, _ =>
    rw [List.intercalate_cons_cons, List.append_assoc]
    exact ⟨c, delim.intercalate (d :: rest), List.append_assoc _ _ _⟩

/-- What is neither in the delimiter nor in a component is not in the text. -/
theorem not_mem_intercalate {x : α} {delim : List α} {comps : List (List α)} (hdelim : x ∉ delim)
    (hcomps : ∀ c ∈ comps, x ∉ c) : x ∉ delim.intercalate comps := by
  induction comps with
  | nil => exact List.not_mem_nil
  | cons c rest ih =>
    obtain ⟨hc, hrest⟩ := List.forall_mem_cons.mp hcomps
    cases rest with
    | nil =>
      rw [List.intercalate_singleton]
      exact hc
    | cons d rest =>
      rw [List.intercalate_cons_cons, List.mem_append, List.mem_append, not_or, not_or]
      exact ⟨⟨hc, hdelim⟩, ih hrest⟩

/-- With the delimiter behind every component it is also behind the last one. -/
theorem flatMap_append_singleton {β : Type*} {x : α} (f : β → List α) {bs : List β} (hne : bs ≠ []) :
    bs.flatMap (fun b => f b ++ [x]) = [x].intercalate (bs.map f) ++ [x] := by
  induction bs with
  | nil => exact absurd rfl hne
  | cons b bs ih =>
    cases bs with
    | nil => rw [List.flatMap_singleton, List.map_singleton, List.intercalate_singleton]
    | cons b' bs =>
      have hmap : (b :: b' :: bs).map f = f b :: (b' :: bs).map f := rfl
      have hrest : (b' :: bs).map f ≠ [] := List.cons_ne_nil _ _
      rw [List.flatMap_cons, ih (List.cons_ne_nil b' bs), hmap,
        List.intercalate_cons_of_ne_nil hrest, List.append_assoc _ _ [x]]

/-- A component more stands behind one delimiter more. -/
theorem intercalate_concat {delim last : List α} {comps : List (List α)} (hne : comps ≠ []) :
    delim.intercalate (comps ++ [last]) = delim.intercalate comps ++ (delim ++ last) := by
  induction comps with
  | nil => exact absurd rfl hne
  | cons c comps ih =>
    cases comps with
    | nil => rw [List.singleton_append, List.intercalate_cons_cons, List.intercalate_singleton,
        List.intercalate_singleton, List.append_assoc]
    | cons d comps =>
      have hcomps := List.cons_ne_nil d comps
      rw [List.cons_append, List.intercalate_cons_of_ne_nil (List.append_ne_nil_of_left_ne_nil hcomps _),
        ih hcomps, List.intercalate_cons_of_ne_nil hcomps, List.append_assoc _ _ (delim ++ last)]

/-- The end of the text is the end of its last component. -/
theorem dropLast_intercalate {delim last : List α} (hlast : last ≠ []) (comps : List (List α)) :
    (delim.intercalate (comps ++ [last])).dropLast =
      delim.intercalate (comps ++ [last.dropLast]) := by
  cases comps with
  | nil =>
    rw [List.nil_append, List.nil_append, List.intercalate_singleton, List.intercalate_singleton]
  | cons c comps =>
    have hcomps := List.cons_ne_nil c comps
    rw [intercalate_concat hcomps, intercalate_concat hcomps,
      List.dropLast_append_of_ne_nil (List.append_ne_nil_of_right_ne_nil delim hlast),
      List.dropLast_append_of_ne_nil hlast]

variable [DecidableEq α]

/-- The first position at which the delimiter stands. -/
def find (delim : List α) : List α → Option ℕ
  | [] => if delim = [] then some 0 else none
  | x :: xs => if delim.isPrefixOf (x :: xs) then some 0 else (find delim xs).map (· + 1)

/-- The components that the loop cuts off, at most the given number. -/
def pieces (delim : List α) : ℕ → List α → List (List α)
  | 0, _ => []
  | n + 1, xs =>
    match find delim xs with
    | none => [xs]
    | some i => xs.take i :: pieces delim n (xs.drop (i + 1))

/-- Nothing is found where the delimiter does not occur. -/
theorem find_eq_none_iff {delim xs : List α} : find delim xs = none ↔ ¬delim <:+: xs := by
  induction xs with
  | nil => simp [find, List.infix_nil]
  | cons x xs ih =>
    rw [find, List.infix_cons_iff, not_or]
    by_cases hbegins : delim <+: x :: xs
    · simp [List.isPrefixOf_iff_prefix.mpr hbegins, hbegins]
    · have hnot : delim.isPrefixOf (x :: xs) = false := by
        rw [← Bool.not_eq_true, List.isPrefixOf_iff_prefix]
        exact hbegins
      rw [hnot, if_neg nofun, Option.map_eq_none_iff, ih]
      exact (and_iff_right hbegins).symm

/-- What is found is the first place where the delimiter stands. -/
theorem find_eq_some_iff {delim xs : List α} {i : ℕ} :
    find delim xs = some i ↔ delim <+: xs.drop i ∧ ∀ j < i, ¬ delim <+: xs.drop j := by
  induction xs generalizing i with
  | nil =>
    simp only [find, List.drop_nil, List.prefix_nil]
    split
    · next hdelim =>
      rw [Option.some.injEq]
      constructor
      · intro hi
        exact ⟨hdelim, fun j hj => by omega⟩
      · intro ⟨_, hbefore⟩
        by_contra hi
        exact hbefore 0 (by omega) hdelim
    · next hdelim => exact iff_of_false nofun fun h => hdelim h.1
  | cons x xs ih =>
    rw [find]
    by_cases hbegins : delim <+: x :: xs
    · rw [if_pos (List.isPrefixOf_iff_prefix.mpr hbegins), Option.some.injEq]
      constructor
      · intro hi
        subst hi
        exact ⟨hbegins, fun j hj => absurd hj (Nat.not_lt_zero j)⟩
      · intro ⟨_, hbefore⟩
        by_contra hi
        exact hbefore 0 (by omega) hbegins
    · rw [if_neg (mt List.isPrefixOf_iff_prefix.mp hbegins)]
      cases i with
      | zero => exact iff_of_false (by simp) fun h => hbegins h.1
      | succ i =>
        simp only [Option.map_eq_some_iff, Nat.add_right_cancel_iff, exists_eq_right, ih,
          List.drop_succ_cons]
        refine and_congr_right fun _ => ⟨fun hbefore j hj => ?_, fun hbefore j hj => ?_⟩
        · cases j with
          | zero => exact hbegins
          | succ j => exact hbefore j (by omega)
        · exact hbefore (j + 1) (by omega)

/-- Where a delimiter is found it stands. -/
theorem prefix_of_find {delim xs : List α} {i : ℕ} (h : find delim xs = some i) :
    delim <+: xs.drop i :=
  (find_eq_some_iff.mp h).1

/-- What is found behind a position is found from there at what is left of the distance. -/
theorem find_drop {delim xs : List α} {i k : ℕ} (h : find delim xs = some i) (hk : k ≤ i) :
    find delim (xs.drop k) = some (i - k) := by
  obtain ⟨hbegins, hbefore⟩ := find_eq_some_iff.mp h
  rw [find_eq_some_iff, List.drop_drop, Nat.add_sub_cancel' hk]
  refine ⟨hbegins, fun j hj => ?_⟩
  rw [List.drop_drop]
  exact hbefore (k + j) (by omega)

/-- What does not occur does not occur behind a position. -/
theorem find_drop_eq_none {delim xs : List α} (h : find delim xs = none) (k : ℕ) :
    find delim (xs.drop k) = none := by
  rw [find_eq_none_iff] at h ⊢
  exact fun hwithin => h (hwithin.trans (List.drop_suffix k xs).isInfix)

/-- What is found ends inside the text. -/
theorem find_add_length_le {delim xs : List α} {i : ℕ} (h : find delim xs = some i) :
    i + delim.length ≤ xs.length := by
  obtain ⟨hbegins, hbefore⟩ := find_eq_some_iff.mp h
  have hlength := hbegins.length_le
  rw [List.length_drop] at hlength
  by_cases hdelim : delim = []
  · have hi : i = 0 := by
      by_contra hi
      exact hbefore 0 (by omega) (hdelim ▸ List.nil_prefix)
    rw [hi, hdelim]
    exact Nat.zero_le _
  · have hpos := List.length_pos_iff.mpr hdelim
    omega

/-- A delimiter is found at once where the text begins with it. -/
theorem find_eq_zero_iff {delim xs : List α} : find delim xs = some 0 ↔ delim <+: xs := by
  rw [find_eq_some_iff, List.drop_zero]
  exact and_iff_left fun j hj => absurd hj (Nat.not_lt_zero j)

/-- The empty delimiter is found at once. -/
theorem find_nil (xs : List α) : find [] xs = some 0 := find_eq_zero_iff.mpr List.nil_prefix

/-- An element is found if it is there. -/
theorem find_singleton_eq_none_iff {x : α} {xs : List α} : find [x] xs = none ↔ x ∉ xs := by
  rw [find_eq_none_iff, List.singleton_infix_iff]

/-- The element that is found is the first one. -/
theorem find_singleton_eq_some {x : α} {xs : List α} {i : ℕ} (h : find [x] xs = some i) :
    x ∉ xs.take i ∧ xs = xs.take i ++ x :: xs.drop (i + 1) := by
  induction xs generalizing i with
  | nil => cases h
  | cons y ys ih =>
    rw [find] at h
    split at h
    · next hbegins =>
      cases Option.some.inj h
      have hxy : x = y := by simpa using hbegins
      exact ⟨List.not_mem_nil, by simp [hxy]⟩
    · next hbegins =>
      obtain ⟨j, hj, rfl⟩ := Option.map_eq_some_iff.mp h
      obtain ⟨hnot, hsplit⟩ := ih hj
      have hxy : x ≠ y := by simpa using hbegins
      rw [List.take_succ_cons, List.drop_succ_cons]
      exact ⟨by simp [hxy, hnot], by rw [List.cons_append, ← hsplit]⟩

/-- For a delimiter of one element the loop cuts off the first components. -/
theorem pieces_singleton (x : α) (n : ℕ) (xs : List α) :
    pieces [x] n xs = (xs.splitOn x).take n := by
  induction n generalizing xs with
  | zero => rfl
  | succ n ih =>
    rw [pieces]
    cases hfind : find [x] xs with
    | none =>
      rw [List.splitOn_eq_singleton (find_singleton_eq_none_iff.mp hfind), List.take_succ_cons,
        List.take_nil]
    | some i =>
      obtain ⟨hnot, hsplit⟩ := find_singleton_eq_some hfind
      conv_rhs => rw [hsplit, List.splitOn_append_cons_self_of_not_mem hnot]
      exact congrArg _ (ih _)

/-- Behind a delimiter of two equal elements the next component is empty or begins with one. -/
theorem exists_second_piece {x : α} {xs : List α} {n i : ℕ} (h : find [x, x] xs = some i) :
    ∃ second rest, pieces [x, x] (n + 2) xs = xs.take i :: second :: rest ∧
      (second = [] ∨ ∃ tail, second = x :: tail) := by
  obtain ⟨after, hafter⟩ := prefix_of_find h
  have hdrop : xs.drop (i + 1) = x :: after := by
    rw [← List.drop_drop, ← hafter]
    rfl
  rw [pieces, h]
  dsimp only
  rw [pieces, hdrop]
  cases find [x, x] (x :: after) with
  | none => exact ⟨_, _, rfl, .inr ⟨after, rfl⟩⟩
  | some j =>
    refine ⟨_, _, rfl, ?_⟩
    cases j with
    | zero => exact .inl rfl
    | succ j => exact .inr ⟨after.take j, rfl⟩

/-- What stands in front of the first delimiter, everything if there is none. -/
def front (delim xs : List α) : List α :=
  match find delim xs with
  | none => xs
  | some i => xs.take i

/-- The front is a part of the text. -/
theorem prefix_front (delim xs : List α) : front delim xs <+: xs := by
  rw [front]
  cases find delim xs with
  | none => exact List.prefix_refl xs
  | some i => exact List.take_prefix i xs

/-- The front ends where the delimiter is found. -/
theorem front_length {delim xs : List α} {i : ℕ} (h : find delim xs = some i) :
    (front delim xs).length = i := by
  have hle := find_add_length_le h
  rw [front, h, List.length_take]
  omega

end Components
