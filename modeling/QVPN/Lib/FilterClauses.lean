import QVPN.Lib.FilterGrammar
import Mathlib.Data.List.Flatten
import Mathlib.Data.List.Nodup
import Mathlib.Logic.Function.DependsOn

/-!
# What filters denote

Rules for evaluating conjunctions of literals, and assignments to tests. In a filter whose tests are
different, the value of every literal can be chosen freely, and what two parts without a common test
say can be chosen independently. So a filter that is joined from two parts says the conjunction or
the disjunction of what they are to say only if each part says its own, and never the opposite.
-/

namespace FilterGrammar

/-- The tests of a filter, from left to right. -/
def testsOf (clauses : List (List Literal)) : List Test := clauses.flatten.map Prod.snd

theorem testsOf_append (clauses others : List (List Literal)) :
    testsOf (clauses ++ others) = testsOf clauses ++ testsOf others := by
  rw [testsOf, List.flatten_append, List.map_append]
  rfl

/-- Joining does not change the tests. -/
theorem testsOf_joined (before : List (List Literal)) (last first : List Literal)
    (after : List (List Literal)) : testsOf (before ++ (last ++ first) :: after) =
      testsOf (before ++ [last]) ++ testsOf (first :: after) := by
  simp [testsOf]

section Eval

variable (env : Test → Bool)

/-- A disjunction holds when one of its sides does. -/
theorem eval_append (clauses others : List (List Literal)) :
    eval env (clauses ++ others) = (eval env clauses || eval env others) := List.any_append

/-- A filter joined at two conjunctions. -/
theorem eval_joined (before : List (List Literal)) (last first : List Literal)
    (after : List (List Literal)) :
    eval env (before ++ (last ++ first) :: after) =
      (eval env before || (last.all (evalLiteral env) && first.all (evalLiteral env)) ||
        eval env after) := by
  rw [eval, List.any_append, List.any_cons, List.all_append, ← Bool.or_assoc]
  rfl

/-- A filter without disjunction. -/
theorem eval_single (clause : List Literal) :
    eval env [clause] = clause.all (evalLiteral env) := by
  rw [eval, List.any_cons, List.any_nil, Bool.or_false]

/-- A filter fails when all its literals do. -/
theorem eval_of_literals {clauses : List (List Literal)} (hne : ∀ clause ∈ clauses, clause ≠ [])
    (h : ∀ l ∈ clauses.flatten, evalLiteral env l = false) : eval env clauses = false := by
  rw [eval, List.any_eq_false]
  intro clause hclause hall
  obtain ⟨l, rest, rfl⟩ := List.exists_cons_of_ne_nil (hne clause hclause)
  have hl := h l (List.mem_flatten.mpr ⟨_, hclause, List.mem_cons_self⟩)
  rw [List.all_cons, hl, Bool.false_and] at hall
  cases hall

end Eval

/-- What a filter says depends on its own tests only. -/
theorem eval_congr {env env' : Test → Bool} {clauses : List (List Literal)}
    (h : ∀ t ∈ testsOf clauses, env t = env' t) : eval env clauses = eval env' clauses := by
  induction clauses with
  | nil => rfl
  | cons clause clauses ih =>
    rw [testsOf, List.flatten_cons, List.map_append] at h
    have hall : clause.all (evalLiteral env) = clause.all (evalLiteral env') := by
      rw [Bool.eq_iff_iff, List.all_eq_true, List.all_eq_true]
      apply forall₂_congr
      intro l hl
      rw [evalLiteral, evalLiteral,
        h l.2 (List.mem_append_left _ (List.mem_map.mpr ⟨l, hl, rfl⟩))]
    have hrest := ih fun t ht => h t (List.mem_append_right _ ht)
    rw [eval, eval, List.any_cons, List.any_cons, hall]
    exact congrArg (clause.all (evalLiteral env') || ·) hrest

/-- The literals of different tests take any values. -/
theorem exists_env {literals : List Literal} (h : (literals.map Prod.snd).Nodup)
    (target : Literal → Bool) : ∃ env, ∀ l ∈ literals, evalLiteral env l = target l := by
  induction literals with
  | nil => exact ⟨fun _ => true, fun _ hl => nomatch hl⟩
  | cons l literals ih =>
    rw [List.map_cons, List.nodup_cons] at h
    obtain ⟨env, henv⟩ := ih h.2
    refine ⟨Function.update env l.2 (target l == l.1), ?_⟩
    intro l' hl'
    obtain rfl | hl' := List.mem_cons.mp hl'
    · rw [evalLiteral, Function.update_self]
      cases l'.1 <;> cases target l' <;> rfl
    · have hne : l'.2 ≠ l.2 := by
        intro heq
        exact h.1 (List.mem_map.mpr ⟨l', hl', heq⟩)
      rw [evalLiteral, Function.update_of_ne hne, ← henv l' hl', evalLiteral]

/-- One assignment on some tests, another one on the others. -/
def splice (tests : List Test) (env env' : Test → Bool) (t : Test) : Bool :=
  if t ∈ tests then env t else env' t

theorem splice_left {tests : List Test} {env env' : Test → Bool} {t : Test} (h : t ∈ tests) :
    splice tests env env' t = env t := if_pos h

theorem splice_right {tests tests' : List Test} (hdisjoint : List.Disjoint tests tests')
    {env env' : Test → Bool} {t : Test} (h : t ∈ tests') : splice tests env env' t = env' t :=
  if_neg fun hleft => hdisjoint hleft h

/-- Filters with the same tests in the same conjunctions have the same list of tests. -/
theorem SameTests.testsOf {clauses clauses' : List (List Literal)}
    (h : SameTests clauses clauses') : testsOf clauses = testsOf clauses' := by
  rw [FilterGrammar.testsOf, FilterGrammar.testsOf, List.map_flatten, List.map_flatten]
  exact congrArg List.flatten h

/-- Joined filters may change places. -/
theorem joined_comm (a k k' b : Bool) : (a || (k && k') || b) = (b || (k' && k) || a) := by
  revert a k k' b
  decide

/-- A function of some tests, beside a filter that uses some of them once each. -/
structure Part (tests : List Test) (m : (Test → Bool) → Bool) (clauses : List (List Literal)) :
    Prop where
  dependsOn : DependsOn m {t | t ∈ tests}
  takes : ∀ b, ∃ env, m env = b
  subset : testsOf clauses ⊆ tests
  nodup : (testsOf clauses).Nodup
  nonempty : ∀ clause ∈ clauses, clause ≠ []

namespace Part

variable {tests tests' : List Test} {m m' : (Test → Bool) → Bool}
  {clauses clauses' before after : List (List Literal)} {last first : List Literal}

/-- Conjunctions may be left out. -/
theorem of_sublist (h : Part tests m clauses) (hsublist : clauses'.Sublist clauses) :
    Part tests m clauses' := by
  have htests : (testsOf clauses').Sublist (testsOf clauses) := hsublist.flatten.map Prod.snd
  exact ⟨h.dependsOn, h.takes, fun _ ht => h.subset (htests.subset ht), h.nodup.sublist htests,
    fun clause hclause => h.nonempty clause (hsublist.subset hclause)⟩

/-- The order of the conjunctions does not matter. -/
theorem of_perm (h : Part tests m clauses) (hperm : clauses.Perm clauses') :
    Part tests m clauses' := by
  have htests : (testsOf clauses).Perm (testsOf clauses') := hperm.flatten.map Prod.snd
  exact ⟨h.dependsOn, h.takes, fun _ ht => h.subset (htests.symm.subset ht),
    htests.nodup_iff.mp h.nodup, fun clause hclause => h.nonempty clause (hperm.symm.subset hclause)⟩

theorem splice_meaning (h : Part tests m clauses) (env env' : Test → Bool) :
    m (splice tests env env') = m env :=
  h.dependsOn fun _ ht => splice_left ht

theorem splice_eval (h : Part tests m clauses) (env env' : Test → Bool) :
    eval (splice tests env env') clauses = eval env clauses :=
  eval_congr fun _ ht => splice_left (h.subset ht)

theorem splice_meaning_right (h : Part tests' m' clauses') (hdisjoint : List.Disjoint tests tests')
    (env env' : Test → Bool) : m' (splice tests env env') = m' env' :=
  h.dependsOn fun _ ht => splice_right hdisjoint ht

theorem splice_eval_right (h : Part tests' m' clauses') (hdisjoint : List.Disjoint tests tests')
    (env env' : Test → Bool) : eval (splice tests env env') clauses' = eval env' clauses' :=
  eval_congr fun _ ht => splice_right hdisjoint (h.subset ht)

/-- All conjunctions can hold at once. -/
theorem satisfiable (h : Part tests m clauses) :
    ∃ env, ∀ clause ∈ clauses, clause.all (evalLiteral env) = true := by
  obtain ⟨env, henv⟩ := exists_env h.nodup fun _ => true
  refine ⟨env, ?_⟩
  intro clause hclause
  rw [List.all_eq_true]
  intro l hl
  exact henv l (List.mem_flatten.mpr ⟨clause, hclause, hl⟩)

/-- All conjunctions can fail at once. -/
theorem refutable (h : Part tests m clauses) : ∃ env, eval env clauses = false := by
  obtain ⟨env, henv⟩ := exists_env h.nodup fun _ => false
  exact ⟨env, eval_of_literals env h.nonempty henv⟩

/-- One conjunction can hold and the others fail. -/
theorem separable (h : Part tests m (last :: before)) :
    ∃ env, eval env [last] = true ∧ eval env before = false := by
  obtain ⟨env, henv⟩ := exists_env h.nodup fun l => decide (l ∈ last)
  rw [List.flatten_cons] at henv
  refine ⟨env, ?_, ?_⟩
  · rw [eval_single, List.all_eq_true]
    intro l hl
    rw [henv l (List.mem_append_left _ hl)]
    exact decide_eq_true hl
  · have hother := h.of_sublist (List.sublist_cons_self last before)
    apply eval_of_literals env hother.nonempty
    intro l hl
    rw [henv l (List.mem_append_right _ hl)]
    apply decide_eq_false
    intro hlast
    have hnodup := h.nodup
    rw [testsOf, List.flatten_cons, List.map_append, List.nodup_append] at hnodup
    exact hnodup.2.2 l.2 (List.mem_map.mpr ⟨l, hlast, rfl⟩) l.2 (List.mem_map.mpr ⟨l, hl, rfl⟩) rfl

/-- A conjunction of two parts is not written with a disjunction in the first. -/
theorem and_before (h : Part tests m (last :: before)) (h' : Part tests' m' (first :: after))
    (hdisjoint : List.Disjoint tests tests')
    (heq : ∀ env, (m env && m' env) =
      (eval env before || (eval env [last] && eval env [first]) || eval env after)) :
    before = [] := by
  cases before with
  | nil => rfl
  | cons clause rest =>
    obtain ⟨env, hholds⟩ := h.satisfiable
    obtain ⟨env', hfails⟩ := h'.takes false
    have hclause : eval env (clause :: rest) = true := by
      rw [eval, List.any_cons, hholds clause (by simp), Bool.true_or]
    have hbefore := h.of_sublist (List.sublist_cons_self last (clause :: rest))
    have hjoint := heq (splice tests env env')
    rw [h'.splice_meaning_right hdisjoint, hfails, Bool.and_false, hbefore.splice_eval, hclause,
      Bool.true_or, Bool.true_or] at hjoint
    cases hjoint

/-- The operands of a conjunction are written each for itself. -/
theorem and_left (h : Part tests m [last]) (h' : Part tests' m' [first])
    (hdisjoint : List.Disjoint tests tests')
    (heq : ∀ env, (m env && m' env) = (eval env [last] && eval env [first])) (env : Test → Bool) :
    m env = eval env [last] := by
  obtain ⟨env₁, hholds₁⟩ := h.satisfiable
  obtain ⟨env₂, hholds₂⟩ := h'.satisfiable
  have hlast : eval env₁ [last] = true := by
    rw [eval_single, hholds₁ last List.mem_cons_self]
  have hfirst : eval env₂ [first] = true := by
    rw [eval_single, hholds₂ first List.mem_cons_self]
  have hboth := heq (splice tests env₁ env₂)
  rw [h.splice_meaning, h'.splice_meaning_right hdisjoint, h.splice_eval,
    h'.splice_eval_right hdisjoint, hlast, hfirst, Bool.and_self, Bool.and_eq_true] at hboth
  have hjoint := heq (splice tests env env₂)
  rwa [h.splice_meaning, h'.splice_meaning_right hdisjoint, h.splice_eval,
    h'.splice_eval_right hdisjoint, hboth.2, hfirst, Bool.and_true, Bool.and_true] at hjoint

/-- The operands of a disjunction are written each for itself. -/
theorem or_left (h : Part tests m clauses) (h' : Part tests' m' clauses')
    (hdisjoint : List.Disjoint tests tests')
    (heq : ∀ env, (m env || m' env) = (eval env clauses || eval env clauses'))
    (env : Test → Bool) : m env = eval env clauses := by
  obtain ⟨env₁, hfails₁⟩ := h.refutable
  obtain ⟨env₂, hfails₂⟩ := h'.refutable
  have hneither := heq (splice tests env₁ env₂)
  rw [h.splice_meaning, h'.splice_meaning_right hdisjoint, h.splice_eval,
    h'.splice_eval_right hdisjoint, hfails₁, hfails₂, Bool.or_self, Bool.or_eq_false_iff] at hneither
  have hjoint := heq (splice tests env env₂)
  rwa [h.splice_meaning, h'.splice_meaning_right hdisjoint, h.splice_eval,
    h'.splice_eval_right hdisjoint, hneither.2, hfails₂, Bool.or_false, Bool.or_false] at hjoint

/-- What a function that is written with one operand says does not depend on the other. -/
theorem not_hidden (h : Part tests m clauses) (h' : Part tests' m' clauses')
    (hdisjoint : List.Disjoint tests tests') {g : (Test → Bool) → Bool}
    (hg : DependsOn g {t | t ∈ tests}) : ¬ ∀ env, (m env && m' env) = g env := by
  intro heq
  obtain ⟨env, hholds⟩ := h.takes true
  obtain ⟨env₁, hholds'⟩ := h'.takes true
  obtain ⟨env₂, hfails'⟩ := h'.takes false
  have hone := heq (splice tests env env₁)
  have hother := heq (splice tests env env₂)
  have hsame : g (splice tests env env₁) = g (splice tests env env₂) := by
    apply hg
    intro t ht
    exact (splice_left ht).trans (splice_left ht).symm
  rw [h.splice_meaning, h'.splice_meaning_right hdisjoint, hholds, hholds', Bool.and_self] at hone
  rw [h.splice_meaning, h'.splice_meaning_right hdisjoint, hholds, hfails', Bool.and_false] at hother
  rw [← hone, ← hother] at hsame
  cases hsame

/-- In a conjunction written for the opposite, an operand holds where its conjunction does. -/
theorem not_and_left (h : Part tests m (last :: before)) (h' : Part tests' m' (first :: after))
    (hdisjoint : List.Disjoint tests tests')
    (heq : ∀ env, (m env && m' env) =
      !(eval env before || (eval env [last] && eval env [first]) || eval env after))
    {env : Test → Bool} (hbefore : eval env before = false) : m env = true := by
  obtain ⟨env', hfails⟩ := h'.refutable
  rw [eval, List.any_cons, Bool.or_eq_false_iff] at hfails
  have hfirst : eval env' [first] = false := (eval_single env' first).trans hfails.1
  have hafter : eval env' after = false := hfails.2
  have hjoint := heq (splice tests env env')
  rw [h.splice_meaning, (h.of_sublist (List.sublist_cons_self last before)).splice_eval, hbefore,
    (h'.of_sublist (List.singleton_sublist.mpr List.mem_cons_self)).splice_eval_right hdisjoint,
    hfirst, (h'.of_sublist (List.sublist_cons_self first after)).splice_eval_right hdisjoint,
    hafter, Bool.and_false, Bool.or_self, Bool.or_self, Bool.not_false, Bool.and_eq_true] at hjoint
  exact hjoint.1

/-- A conjunction of two parts is not written for the opposite of a joined filter. -/
theorem not_and (h : Part tests m (last :: before)) (h' : Part tests' m' (first :: after))
    (hdisjoint : List.Disjoint tests tests') : ¬ ∀ env, (m env && m' env) =
      !(eval env before || (eval env [last] && eval env [first]) || eval env after) := by
  intro heq
  have hswapped (env : Test → Bool) : (m' env && m env) =
      !(eval env after || (eval env [first] && eval env [last]) || eval env before) := by
    rw [Bool.and_comm, heq, joined_comm]
  obtain ⟨env₁, hlast, hbefore⟩ := h.separable
  obtain ⟨env₂, hfirst, hafter⟩ := h'.separable
  have hjoint := heq (splice tests env₁ env₂)
  rw [h.splice_meaning, h'.splice_meaning_right hdisjoint,
    h.not_and_left h' hdisjoint heq hbefore,
    h'.not_and_left h (List.disjoint_symm hdisjoint) hswapped hafter,
    (h.of_sublist (List.singleton_sublist.mpr List.mem_cons_self)).splice_eval, hlast,
    (h'.of_sublist (List.singleton_sublist.mpr List.mem_cons_self)).splice_eval_right hdisjoint,
    hfirst, Bool.and_self, Bool.or_true, Bool.true_or] at hjoint
  cases hjoint

/-- A disjunction of two parts is not written for the opposite of a disjunction. -/
theorem not_or (h : Part tests m clauses) (h' : Part tests' m' clauses')
    (hdisjoint : List.Disjoint tests tests') (hne : clauses' ≠ []) :
    ¬ ∀ env, (m env || m' env) = !(eval env clauses || eval env clauses') := by
  intro heq
  obtain ⟨env₁, hholds⟩ := h.takes true
  obtain ⟨env₂, hholds'⟩ := h'.satisfiable
  obtain ⟨clause, rest, rfl⟩ := List.exists_cons_of_ne_nil hne
  have hclauses : eval env₂ (clause :: rest) = true := by
    rw [eval, List.any_cons, hholds' clause List.mem_cons_self, Bool.true_or]
  have hjoint := heq (splice tests env₁ env₂)
  rw [h.splice_meaning, hholds, Bool.true_or, h'.splice_eval_right hdisjoint, hclauses,
    Bool.or_true] at hjoint
  cases hjoint

end Part

end FilterGrammar
