import QVPN.Properties.FilterAlgebra

/-!
# Which filter expressions are read back

The converse: if the tests of an expression are different and its text says what it means, then the
text keeps its structure. A text that is read at all has only tests of its expression. At every
operator, truth values for the tests of one operand are chosen against the other operand.
-/

namespace QVPN

open FilterGrammar WinDivertTrafficFilterType

namespace FilterExpr

variable {known : Test → Bool}

/-- The tokens of an expression or of its negation. -/
def Tokens (e : FilterExpr) (ts : List Token) : Prop := ts = lex e.text ∨ Negates (lex e.text) ts

theorem tokens_operator (e : FilterExpr) (negation : Bool) :
    e.Tokens (lex (if negation then operatorNot e.text else e.text)) := by
  cases negation with
  | false => exact Or.inl rfl
  | true => exact Or.inr (negates_operatorNot e.text)

/-- Negation does not change which tests are read. -/
theorem Tokens.sameTests {e : FilterExpr} {ts : List Token} (hts : e.Tokens ts)
    {clauses : List (List Literal)} (h : parse known ts = some clauses) :
    ∃ clauses', parse known (lex e.text) = some clauses' ∧ testsOf clauses = testsOf clauses' := by
  obtain rfl | hnegates := hts
  · exact ⟨clauses, h, rfl⟩
  · obtain ⟨clauses', hclauses', hsame⟩ := hnegates.sameTests h
    exact ⟨clauses', hclauses', hsame.testsOf⟩

/-- The text of an atom is read as its tests. -/
theorem atom_tests {a : FilterAtom} {clauses : List (List Literal)}
    (h : parse known (lex a.text) = some clauses) : testsOf clauses = a.tests ∧
      a.Supported ∧ ∀ t ∈ a.tests, known t = true := by
  cases atomShape a with
  | flag name htests hlex hsupported =>
    rw [hlex] at h
    obtain ⟨hknown, rfl⟩ := parse_flag_inversion h
    rw [htests, List.forall_mem_singleton]
    exact ⟨rfl, hsupported, hknown⟩
  | compare field value htests hlex hsupported =>
    rw [hlex] at h
    obtain ⟨hknown, rfl⟩ := parse_compare_inversion h
    rw [htests, List.forall_mem_singleton]
    exact ⟨rfl, hsupported, hknown⟩
  | ports field field' value htests hlex hsupported =>
    have hsides : lex a.text = [.word field, .eq, .word value] ++ .or ::
        [.word field', .eq, .word value] := hlex
    rw [hsides] at h
    obtain ⟨left, right, hleft, hright, rfl⟩ := parse_or_inversion h
    obtain ⟨hknown, rfl⟩ := parse_compare_inversion hleft
    obtain ⟨hknown', rfl⟩ := parse_compare_inversion hright
    rw [htests, List.forall_mem_cons, List.forall_mem_singleton]
    exact ⟨rfl, hsupported, hknown, hknown'⟩
  | unsupported message htests hlex hsupported =>
    rw [hlex] at h
    cases h

/-- What is read of a text are tests of its expression, in their order. -/
theorem tests_of_parse {e : FilterExpr} {clauses : List (List Literal)}
    (h : parse known (lex e.text) = some clauses) : (testsOf clauses).Sublist e.tests := by
  induction e generalizing clauses with
  | empty => cases h
  | atom a =>
    rw [(atom_tests h).1]
    exact List.Sublist.refl _
  | and e₁ e₂ ih₁ ih₂ =>
    by_cases hblank₂ : e₂.Blank
    · rw [text_and_left hblank₂] at h
      exact (ih₁ h).trans (List.sublist_append_left _ _)
    · by_cases hblank₁ : e₁.Blank
      · rw [text_and_right hblank₁] at h
        exact (ih₂ h).trans (List.sublist_append_right _ _)
      · rw [text_and hblank₁ hblank₂, lex_and] at h
        obtain ⟨before, last, first, after, hleft, hright, rfl⟩ := parse_and_inversion h
        rw [testsOf_joined]
        exact (ih₁ hleft).append (ih₂ hright)
  | or e₁ e₂ ih₁ ih₂ =>
    by_cases hblank : (FilterExpr.or e₁ e₂).Blank
    · rw [(text_eq_nil_iff _).mpr hblank] at h
      cases h
    · obtain ⟨hblank₁, hblank₂⟩ := not_or.mp hblank
      rw [text_or hblank₁ hblank₂, lex_or] at h
      obtain ⟨left, right, hleft, hright, rfl⟩ := parse_or_inversion h
      rw [testsOf_append]
      exact (ih₁ hleft).append (ih₂ hright)
  | not e ih =>
    obtain ⟨clauses', hclauses', hsame⟩ :=
      Tokens.sameTests (Or.inr (negates_operatorNot e.text)) h
    rw [hsame]
    exact ih hclauses'

/-- A text that is read has a test. -/
theorem tests_ne_nil_of_parse {e : FilterExpr} {ts : List Token} (hts : e.Tokens ts)
    {clauses : List (List Literal)} (h : parse known ts = some clauses) : e.tests ≠ [] := by
  intro hnil
  obtain ⟨clauses', hclauses', -⟩ := hts.sameTests h
  have htests := tests_of_parse hclauses'
  obtain ⟨hne, hclauses⟩ := parseFrom_ne_nil hclauses'
  obtain ⟨clause, rest, rfl⟩ := List.exists_cons_of_ne_nil hne
  obtain ⟨l, clause, rfl⟩ := List.exists_cons_of_ne_nil (hclauses clause List.mem_cons_self)
  rw [hnil, List.sublist_nil] at htests
  cases htests

section Values

/-- What an expression means depends on its tests only. -/
theorem meaning_dependsOn (e : FilterExpr) :
    DependsOn (fun env => e.meaning env) {t | t ∈ e.tests} := by
  intro env env' h
  induction e with
  | empty => rfl
  | atom a =>
    have hany : a.tests.any env = a.tests.any env' := by
      rw [Bool.eq_iff_iff, List.any_eq_true, List.any_eq_true]
      apply exists_congr
      intro t
      apply and_congr_right
      intro ht
      rw [h t ht]
    exact congrArg some hany
  | and e₁ e₂ ih₁ ih₂ =>
    have h₁ : e₁.meaning env = e₁.meaning env' := ih₁ fun t ht => h t (List.mem_append_left _ ht)
    have h₂ : e₂.meaning env = e₂.meaning env' := ih₂ fun t ht => h t (List.mem_append_right _ ht)
    dsimp only [meaning]
    rw [h₁, h₂]
  | or e₁ e₂ ih₁ ih₂ =>
    have h₁ : e₁.meaning env = e₁.meaning env' := ih₁ fun t ht => h t (List.mem_append_left _ ht)
    have h₂ : e₂.meaning env = e₂.meaning env' := ih₂ fun t ht => h t (List.mem_append_right _ ht)
    dsimp only [meaning]
    rw [h₁, h₂]
  | not e ih => exact congrArg (Option.map (!·)) (ih h)

/-- Operands without a common test hold, or fail, together. -/
theorem takes_merge {e₁ e₂ : FilterExpr} (hnodup : (e₁.tests ++ e₂.tests).Nodup)
    (hne : e₁.tests ++ e₂.tests ≠ []) {b : Bool}
    (h₁ : e₁.tests.Nodup → e₁.tests ≠ [] → ∃ env, e₁.meaning env = some b)
    (h₂ : e₂.tests.Nodup → e₂.tests ≠ [] → ∃ env, e₂.meaning env = some b)
    {f : Bool → Bool → Bool} (hf : f b b = b) :
    ∃ env, Option.merge f (e₁.meaning env) (e₂.meaning env) = some b := by
  obtain ⟨hnodup₁, hnodup₂, -⟩ := List.nodup_append.mp hnodup
  by_cases hnil₁ : e₁.tests = []
  · rw [hnil₁, List.nil_append] at hne
    obtain ⟨env, h⟩ := h₂ hnodup₂ hne
    refine ⟨env, ?_⟩
    rw [meaning_eq_none hnil₁, h, Option.merge_none_left]
  · by_cases hnil₂ : e₂.tests = []
    · obtain ⟨env, h⟩ := h₁ hnodup₁ hnil₁
      refine ⟨env, ?_⟩
      rw [meaning_eq_none hnil₂, h, Option.merge_none_right]
    · obtain ⟨env₁, h₁⟩ := h₁ hnodup₁ hnil₁
      obtain ⟨env₂, h₂⟩ := h₂ hnodup₂ hnil₂
      have hleft : e₁.meaning (splice e₁.tests env₁ env₂) = e₁.meaning env₁ :=
        e₁.meaning_dependsOn fun _ ht => splice_left ht
      have hright : e₂.meaning (splice e₁.tests env₁ env₂) = e₂.meaning env₂ :=
        e₂.meaning_dependsOn fun _ ht =>
          splice_right (List.disjoint_of_nodup_append hnodup) ht
      refine ⟨splice e₁.tests env₁ env₂, ?_⟩
      rw [hleft, hright, h₁, h₂]
      exact congrArg some hf

/-- An expression with different tests can hold and can fail. -/
theorem takes {e : FilterExpr} (hnodup : e.tests.Nodup) (hne : e.tests ≠ []) (b : Bool) :
    ∃ env, e.meaning env = some b := by
  induction e generalizing b with
  | empty => exact absurd rfl hne
  | atom a =>
    obtain ⟨t, rest, htests⟩ := List.exists_cons_of_ne_nil a.tests_ne_nil
    refine ⟨fun _ => b, ?_⟩
    rw [meaning, htests]
    cases b <;> simp
  | and e₁ e₂ ih₁ ih₂ =>
    exact takes_merge hnodup hne (fun hnodup hne => ih₁ hnodup hne b)
      (fun hnodup hne => ih₂ hnodup hne b) (Bool.and_self b)
  | or e₁ e₂ ih₁ ih₂ =>
    exact takes_merge hnodup hne (fun hnodup hne => ih₁ hnodup hne b)
      (fun hnodup hne => ih₂ hnodup hne b) (Bool.or_self b)
  | not e ih =>
    obtain ⟨env, h⟩ := ih hnodup hne !b
    refine ⟨env, ?_⟩
    rw [meaning, h]
    exact congrArg some (Bool.not_not b)

/-- Only an expression without a test says nothing. -/
theorem tests_of_meaning {e : FilterExpr} {env : Test → Bool} (h : e.meaning env = none) :
    e.tests = [] := by
  induction e with
  | empty => rfl
  | atom a => cases h
  | and e₁ e₂ ih₁ ih₂ =>
    obtain ⟨h₁, h₂⟩ := Option.merge_eq_none_iff.mp h
    rw [tests, ih₁ h₁, ih₂ h₂, List.append_nil]
  | or e₁ e₂ ih₁ ih₂ =>
    obtain ⟨h₁, h₂⟩ := Option.merge_eq_none_iff.mp h
    rw [tests, ih₁ h₁, ih₂ h₂, List.append_nil]
  | not e ih => exact ih (Option.map_eq_none_iff.mp h)

/-- Whether an expression holds, if it has a test. -/
def holds (e : FilterExpr) (env : Test → Bool) : Bool := (e.meaning env).getD false

/-- An expression with a test says something. -/
theorem meaning_eq_holds {e : FilterExpr} (h : e.tests ≠ []) (env : Test → Bool) :
    e.meaning env = some (e.holds env) := by
  unfold holds
  cases hmeaning : e.meaning env with
  | none => exact absurd (tests_of_meaning hmeaning) h
  | some b => rfl

theorem meaning_and {e₁ e₂ : FilterExpr} (h₁ : e₁.tests ≠ []) (h₂ : e₂.tests ≠ [])
    (env : Test → Bool) :
    (FilterExpr.and e₁ e₂).meaning env = some (e₁.holds env && e₂.holds env) := by
  rw [meaning, meaning_eq_holds h₁, meaning_eq_holds h₂]
  rfl

theorem meaning_or {e₁ e₂ : FilterExpr} (h₁ : e₁.tests ≠ []) (h₂ : e₂.tests ≠ [])
    (env : Test → Bool) :
    (FilterExpr.or e₁ e₂).meaning env = some (e₁.holds env || e₂.holds env) := by
  rw [meaning, meaning_eq_holds h₁, meaning_eq_holds h₂]
  rfl

/-- What an expression with different tests says, beside an empty filter. -/
theorem silent {e : FilterExpr} (hnodup : e.tests.Nodup) (hne : e.tests ≠ []) :
    Part e.tests e.holds [] := by
  refine ⟨?_, ?_, List.nil_subset _, List.nodup_nil, fun _ hclause => nomatch hclause⟩
  · intro env env' henv
    have hmeaning : e.meaning env = e.meaning env' := e.meaning_dependsOn henv
    rw [holds, holds, hmeaning]
  · intro b
    obtain ⟨env, hb⟩ := takes hnodup hne b
    refine ⟨env, ?_⟩
    rw [holds, hb, Option.getD_some]

/-- What an expression with different tests says, beside what is read of it. -/
theorem part {e : FilterExpr} (hnodup : e.tests.Nodup) {ts : List Token} (hts : e.Tokens ts)
    {clauses : List (List Literal)} (h : parse known ts = some clauses) :
    Part e.tests e.holds clauses := by
  obtain ⟨clauses', hclauses', hsame⟩ := hts.sameTests h
  have hsublist := tests_of_parse hclauses'
  rw [← hsame] at hsublist
  have hsilent := silent hnodup (tests_ne_nil_of_parse hts h)
  exact ⟨hsilent.dependsOn, hsilent.takes, hsublist.subset, hnodup.sublist hsublist,
    (parseFrom_ne_nil h).2⟩

end Values

section Operands

/-- An operand of a conjunction that is not in the text has no test. -/
theorem hidden {e e' : FilterExpr} (hnodup : e.tests.Nodup) (hnodup' : e'.tests.Nodup)
    (hdisjoint : List.Disjoint e.tests e'.tests) {ts : List Token} (hts : e.Tokens ts)
    {clauses : List (List Literal)} (hparse : parse known ts = some clauses) {negation : Bool}
    (h : e.tests ≠ [] → e'.tests ≠ [] →
      ∀ env, (e.holds env && e'.holds env) = (eval env clauses != negation)) : e'.tests = [] := by
  by_contra hne'
  have hpart := part hnodup hts hparse
  have hg : DependsOn (fun env => eval env clauses != negation) {t | t ∈ e.tests} := by
    intro env env' henv
    dsimp only
    rw [eval_congr fun t ht => henv t (hpart.subset ht)]
  exact hpart.not_hidden (silent hnodup' hne') hdisjoint hg
    (h (tests_ne_nil_of_parse hts hparse) hne')

/-- Two texts with a separator between them are negated on one side. -/
theorem tokens_append {e₁ e₂ : FilterExpr} {sep : Token} (hsep : ¬ Comparison sep)
    {ts : List Token} (h : Negates (lex e₁.text ++ sep :: lex e₂.text) ts) :
    ∃ xs ys, e₁.Tokens xs ∧ e₂.Tokens ys ∧ ts = xs ++ sep :: ys := by
  obtain ⟨xs, hxs, rfl⟩ | ⟨ys, hys, rfl⟩ := Negates.append hsep h
  · exact ⟨xs, _, Or.inr hxs, Or.inl rfl, rfl⟩
  · exact ⟨_, ys, Or.inl rfl, Or.inr hys, rfl⟩

/-- The operands of a conjunction that is read back are single conjunctions, not negated. -/
theorem ReadAs.of_and {e₁ e₂ : FilterExpr} (hnodup : (e₁.tests ++ e₂.tests).Nodup)
    (hblank₁ : ¬ e₁.Blank) (hblank₂ : ¬ e₂.Blank) {negation : Bool}
    {clauses : List (List Literal)} (h : ReadAs known negation (.and e₁ e₂) clauses) :
    negation = false ∧
      ∃ last first, ReadAs known false e₁ [last] ∧ ReadAs known false e₂ [first] := by
  obtain ⟨hnodup₁, hnodup₂, -⟩ := List.nodup_append.mp hnodup
  have hdisjoint := List.disjoint_of_nodup_append hnodup
  obtain ⟨hparsed, hmeaning⟩ := h
  have hlex : lex (FilterExpr.and e₁ e₂).text = lex e₁.text ++ .and :: lex e₂.text := by
    rw [text_and hblank₁ hblank₂, lex_and]
  cases negation with
  | false =>
    rw [if_neg Bool.false_ne_true, hlex] at hparsed
    obtain ⟨before, last, first, after, hleft, hright, rfl⟩ := parse_and_inversion hparsed
    have hne₁ := tests_ne_nil_of_parse (Or.inl rfl) hleft
    have hne₂ := tests_ne_nil_of_parse (Or.inl rfl) hright
    have hpart₁ :=
      (part hnodup₁ (Or.inl rfl) hleft).of_perm (List.perm_append_singleton last before)
    have hpart₂ := part hnodup₂ (Or.inl rfl) hright
    have heq (env : Test → Bool) : (e₁.holds env && e₂.holds env) =
        (eval env before || (eval env [last] && eval env [first]) || eval env after) := by
      have hsome := hmeaning env
      rw [meaning_and hne₁ hne₂, Bool.bne_false, eval_joined, ← eval_single, ← eval_single] at hsome
      exact Option.some.inj hsome
    have hswapped (env : Test → Bool) : (e₂.holds env && e₁.holds env) =
        (eval env after || (eval env [first] && eval env [last]) || eval env before) := by
      rw [Bool.and_comm, heq, joined_comm]
    have hbefore := hpart₁.and_before hpart₂ hdisjoint heq
    have hafter := hpart₂.and_before hpart₁ (List.disjoint_symm hdisjoint) hswapped
    subst hbefore hafter
    refine ⟨rfl, last, first, ⟨hleft, ?_⟩, ⟨hright, ?_⟩⟩
    · intro env
      rw [meaning_eq_holds hne₁, Bool.bne_false]
      exact congrArg some (hpart₁.and_left hpart₂ hdisjoint (by simpa [eval] using heq) env)
    · intro env
      rw [meaning_eq_holds hne₂, Bool.bne_false]
      exact congrArg some (hpart₂.and_left hpart₁ (List.disjoint_symm hdisjoint)
        (by simpa [eval] using hswapped) env)
  | true =>
    have hnegates := negates_operatorNot (FilterExpr.and e₁ e₂).text
    rw [hlex] at hnegates
    obtain ⟨xs, ys, hxs, hys, hts⟩ := tokens_append (by simp [Comparison]) hnegates
    rw [if_pos rfl, hts] at hparsed
    obtain ⟨before, last, first, after, hleft, hright, rfl⟩ := parse_and_inversion hparsed
    have hpart₁ := (part hnodup₁ hxs hleft).of_perm (List.perm_append_singleton last before)
    have hpart₂ := part hnodup₂ hys hright
    apply absurd _ (hpart₁.not_and hpart₂ hdisjoint)
    intro env
    have hsome := hmeaning env
    rw [meaning_and (tests_ne_nil_of_parse hxs hleft) (tests_ne_nil_of_parse hys hright),
      Bool.bne_true, eval_joined, ← eval_single, ← eval_single] at hsome
    exact Option.some.inj hsome

/-- The operands of a disjunction that is read back are read back, and not negated. -/
theorem ReadAs.of_or {e₁ e₂ : FilterExpr} (hnodup : (e₁.tests ++ e₂.tests).Nodup)
    {negation : Bool} {clauses : List (List Literal)}
    (h : ReadAs known negation (.or e₁ e₂) clauses) :
    negation = false ∧ ∃ left right, ReadAs known false e₁ left ∧ ReadAs known false e₂ right := by
  obtain ⟨hnodup₁, hnodup₂, -⟩ := List.nodup_append.mp hnodup
  have hdisjoint := List.disjoint_of_nodup_append hnodup
  obtain ⟨hparsed, hmeaning⟩ := h
  have hblank : ¬ (FilterExpr.or e₁ e₂).Blank := by
    intro hblank
    rw [(text_eq_nil_iff _).mpr hblank] at hparsed
    cases negation <;> cases hparsed
  obtain ⟨hblank₁, hblank₂⟩ := not_or.mp hblank
  have hlex : lex (FilterExpr.or e₁ e₂).text = lex e₁.text ++ .or :: lex e₂.text := by
    rw [text_or hblank₁ hblank₂, lex_or]
  cases negation with
  | false =>
    rw [if_neg Bool.false_ne_true, hlex] at hparsed
    obtain ⟨left, right, hleft, hright, rfl⟩ := parse_or_inversion hparsed
    have hne₁ := tests_ne_nil_of_parse (Or.inl rfl) hleft
    have hne₂ := tests_ne_nil_of_parse (Or.inl rfl) hright
    have hpart₁ := part hnodup₁ (Or.inl rfl) hleft
    have hpart₂ := part hnodup₂ (Or.inl rfl) hright
    have heq (env : Test → Bool) : (e₁.holds env || e₂.holds env) =
        (eval env left || eval env right) := by
      have hsome := hmeaning env
      rw [meaning_or hne₁ hne₂, Bool.bne_false, eval_append] at hsome
      exact Option.some.inj hsome
    have hswapped (env : Test → Bool) : (e₂.holds env || e₁.holds env) =
        (eval env right || eval env left) := by
      rw [Bool.or_comm, heq, Bool.or_comm]
    refine ⟨rfl, left, right, ⟨hleft, ?_⟩, ⟨hright, ?_⟩⟩
    · intro env
      rw [meaning_eq_holds hne₁, Bool.bne_false, hpart₁.or_left hpart₂ hdisjoint heq]
    · intro env
      rw [meaning_eq_holds hne₂, Bool.bne_false,
        hpart₂.or_left hpart₁ (List.disjoint_symm hdisjoint) hswapped]
  | true =>
    have hnegates := negates_operatorNot (FilterExpr.or e₁ e₂).text
    rw [hlex] at hnegates
    obtain ⟨xs, ys, hxs, hys, hts⟩ := tokens_append (by simp [Comparison]) hnegates
    rw [if_pos rfl, hts] at hparsed
    obtain ⟨left, right, hleft, hright, rfl⟩ := parse_or_inversion hparsed
    have hpart₁ := part hnodup₁ hxs hleft
    have hpart₂ := part hnodup₂ hys hright
    apply absurd _ (hpart₁.not_or hpart₂ hdisjoint (parseFrom_ne_nil hright).1)
    intro env
    have hsome := hmeaning env
    rw [meaning_or (tests_ne_nil_of_parse hxs hleft) (tests_ne_nil_of_parse hys hright),
      Bool.bne_true, eval_append] at hsome
    exact Option.some.inj hsome

end Operands

section Exactness

/-- A negated atom that is read back is a single test. -/
theorem atom_single {a : FilterAtom} {clauses : List (List Literal)}
    (h : ReadAs known true (.atom a) clauses) : a.tests.length = 1 := by
  obtain ⟨hparsed, hmeaning⟩ := h
  have hnegates := negates_operatorNot a.text
  cases atomShape a with
  | flag name htests _ _ => rw [htests, List.length_singleton]
  | compare field value htests _ _ => rw [htests, List.length_singleton]
  | unsupported message htests _ _ => rw [htests, List.length_singleton]
  | ports field field' value htests hlex _ =>
    have hbefore : ∀ t ∈ [Token.word field], ¬ Comparison t := by simp [Comparison]
    rw [hlex] at hnegates
    have hnot : lex (operatorNot a.text) = [.word field, .neq, .word value] ++ .or ::
        [.word field', .eq, .word value] := Negates.of_eq hbefore hnegates
    rw [if_pos rfl, text, hnot] at hparsed
    obtain ⟨left, right, -, hright, rfl⟩ := parse_or_inversion hparsed
    obtain ⟨-, rfl⟩ := parse_compare_inversion hright
    -- where both tests hold, the second is read as before
    have hall := hmeaning fun _ => true
    rw [meaning, htests, eval_append, eval_single] at hall
    simp [evalLiteral] at hall

/-- A comparison in an expression that keeps its structure is in the text. -/
theorem Rendered.comparison {negation : Bool} {e : FilterExpr} (h : Rendered known negation e)
    (hcompares : e.Compares) : ∃ t ∈ lex e.text, Comparison t := by
  have hsilent {e : FilterExpr} (h : e.Neutral) : ¬ e.Compares := by
    rintro ⟨field, value, hmem⟩
    rw [h.1] at hmem
    cases hmem
  have hjoined {e₁ e₂ : FilterExpr} {sep : Token}
      (h : (∃ t ∈ lex e₁.text, Comparison t) ∨ ∃ t ∈ lex e₂.text, Comparison t) :
      ∃ t ∈ lex e₁.text ++ sep :: lex e₂.text, Comparison t := by
    obtain ⟨t, ht, hcomparison⟩ | ⟨t, ht, hcomparison⟩ := h
    · exact ⟨t, List.mem_append_left _ ht, hcomparison⟩
    · exact ⟨t, List.mem_append_right _ (List.mem_cons_of_mem _ ht), hcomparison⟩
  induction e generalizing negation with
  | empty => exact absurd h id
  | atom a =>
    obtain ⟨field, value, hmem⟩ := hcompares
    cases atomShape a with
    | flag name htests _ _ => simp [tests, htests] at hmem
    | compare field value _ hlex _ => exact ⟨.eq, by simp [text, hlex], Or.inl rfl⟩
    | ports field field' value _ hlex _ => exact ⟨.eq, by simp [text, hlex], Or.inl rfl⟩
    | unsupported message htests _ _ => simp [tests, htests] at hmem
  | and e₁ e₂ ih₁ ih₂ =>
    have hcompares := (compares_and e₁ e₂).mp hcompares
    obtain ⟨hneutral, h⟩ | ⟨hneutral, h⟩ | ⟨-, h₁, h₂, -⟩ := h
    · rw [text_and_left hneutral.2]
      exact ih₁ h (hcompares.resolve_right (hsilent hneutral))
    · rw [text_and_right hneutral.2]
      exact ih₂ h (hcompares.resolve_left (hsilent hneutral))
    · rw [text_and h₁.not_blank h₂.not_blank, lex_and]
      exact hjoined (hcompares.imp (ih₁ h₁) (ih₂ h₂))
  | or e₁ e₂ ih₁ ih₂ =>
    obtain ⟨-, h₁, h₂⟩ := h
    rw [text_or h₁.not_blank h₂.not_blank, lex_or]
    exact hjoined (((compares_or e₁ e₂).mp hcompares).imp (ih₁ h₁) (ih₂ h₂))
  | not e ih =>
    apply (negates_operatorNot e.text).comparison
    cases negation with
    | false =>
      have hnegated : Rendered known true e := h
      exact ih hnegated hcompares
    | true => exact ih h.1 hcompares

/-- An expression that is read back behind two exclamation marks has no comparison in its text. -/
theorem ReadAs.of_notNot {e : FilterExpr} {clauses : List (List Literal)}
    (h : ReadAs known true (.not e) clauses) :
    ReadAs known false e clauses ∧ ∀ t ∈ lex e.text, ¬ Comparison t := by
  obtain ⟨hparsed, hmeaning⟩ := h
  rw [if_pos rfl] at hparsed
  have hnone : ∀ t ∈ lex e.text, ¬ Comparison t := by
    intro t ht hcomparison
    have hnot : Negates (lex e.text) (lex (FilterExpr.not e).text) := negates_operatorNot e.text
    rw [hnot.twice (negates_operatorNot _) ⟨t, ht, hcomparison⟩] at hparsed
    cases hparsed
  rw [lex_notNot hnone, parse_not, parse_not, Option.map_map] at hparsed
  obtain ⟨clauses', hclauses', rfl⟩ := Option.map_eq_some_iff.mp hparsed
  refine ⟨⟨?_, ?_⟩, hnone⟩
  · rw [if_neg Bool.false_ne_true, hclauses']
    exact congrArg some (negateFirst_negateFirst clauses').symm
  · intro env
    obtain ⟨b, hb, hnot⟩ := Option.map_eq_some_iff.mp (hmeaning env)
    rw [hb, Bool.bne_false]
    rw [Bool.bne_true] at hnot
    exact congrArg some (Bool.not_inj hnot)

/-- What is read back as a single conjunction is no disjunction. -/
theorem ReadAs.not_disjunctive {e : FilterExpr} {clause : List Literal}
    (h : ReadAs known false e [clause]) (hrendered : Rendered known false e) :
    ¬ e.Disjunctive := by
  obtain ⟨clauses, hread, hlength⟩ := hrendered.readAs
  have hclauses : clauses = [clause] := Option.some.inj (hread.parsed.symm.trans h.parsed)
  rw [← hlength, hclauses, List.length_singleton]

/-- Only what keeps its structure is read back. -/
theorem ReadAs.rendered {negation : Bool} {e : FilterExpr} (hnodup : e.tests.Nodup)
    {clauses : List (List Literal)} (h : ReadAs known negation e clauses) :
    Rendered known negation e := by
  induction e generalizing negation clauses with
  | empty =>
    have hparsed := h.parsed
    cases negation <;> cases hparsed
  | atom a =>
    obtain ⟨clauses', hclauses', -⟩ :=
      (tokens_operator (.atom a) negation).sameTests h.parsed
    obtain ⟨-, hsupported, hknown⟩ := atom_tests hclauses'
    refine ⟨hsupported, hknown, ?_⟩
    rintro rfl
    exact atom_single h
  | and e₁ e₂ ih₁ ih₂ =>
    obtain ⟨hnodup₁, hnodup₂, -⟩ := List.nodup_append.mp hnodup
    have hdisjoint := List.disjoint_of_nodup_append hnodup
    by_cases hblank₂ : e₂.Blank
    · obtain ⟨hparsed, hmeaning⟩ := h
      rw [text_and_left hblank₂] at hparsed
      have htests : e₂.tests = [] := by
        apply hidden hnodup₁ hnodup₂ hdisjoint (tokens_operator e₁ negation) hparsed
        intro hne₁ hne₂ env
        exact Option.some.inj ((meaning_and hne₁ hne₂ env).symm.trans (hmeaning env))
      refine Or.inl ⟨⟨htests, hblank₂⟩, ih₁ hnodup₁ ⟨hparsed, ?_⟩⟩
      intro env
      rw [← hmeaning, FilterExpr.meaning, meaning_eq_none htests, Option.merge_none_right]
    · by_cases hblank₁ : e₁.Blank
      · obtain ⟨hparsed, hmeaning⟩ := h
        rw [text_and_right hblank₁] at hparsed
        have htests : e₁.tests = [] := by
          apply hidden hnodup₂ hnodup₁ (List.disjoint_symm hdisjoint)
            (tokens_operator e₂ negation) hparsed
          intro hne₂ hne₁ env
          rw [Bool.and_comm]
          exact Option.some.inj ((meaning_and hne₁ hne₂ env).symm.trans (hmeaning env))
        refine Or.inr (Or.inl ⟨⟨htests, hblank₁⟩, ih₂ hnodup₂ ⟨hparsed, ?_⟩⟩)
        intro env
        rw [← hmeaning, FilterExpr.meaning, meaning_eq_none htests, Option.merge_none_left]
      · obtain ⟨rfl, last, first, h₁, h₂⟩ := h.of_and hnodup hblank₁ hblank₂
        have hrendered₁ := ih₁ hnodup₁ h₁
        have hrendered₂ := ih₂ hnodup₂ h₂
        exact Or.inr (Or.inr ⟨rfl, hrendered₁, hrendered₂, h₁.not_disjunctive hrendered₁,
          h₂.not_disjunctive hrendered₂⟩)
  | or e₁ e₂ ih₁ ih₂ =>
    obtain ⟨hnodup₁, hnodup₂, -⟩ := List.nodup_append.mp hnodup
    obtain ⟨rfl, left, right, h₁, h₂⟩ := h.of_or hnodup
    exact ⟨rfl, ih₁ hnodup₁ h₁, ih₂ hnodup₂ h₂⟩
  | not e ih =>
    cases negation with
    | false =>
      obtain ⟨hparsed, hmeaning⟩ := h
      have hrendered : Rendered known true e := by
        apply ih hnodup ⟨hparsed, ?_⟩
        intro env
        obtain ⟨b, hb, hnot⟩ := Option.map_eq_some_iff.mp (hmeaning env)
        rw [hb, Bool.bne_true]
        rw [Bool.bne_false] at hnot
        rw [← hnot, Bool.not_not]
      exact hrendered
    | true =>
      obtain ⟨hread, hnone⟩ := h.of_notNot
      have hrendered := ih hnodup hread
      refine ⟨hrendered, ?_⟩
      intro hcompares
      obtain ⟨t, ht, hcomparison⟩ := hrendered.comparison hcompares
      exact hnone t ht hcomparison

end Exactness

/-- The text of an expression without repeated tests keeps the structure of what it says. -/
theorem Faithful.rendered {e : FilterExpr} (hnodup : e.tests.Nodup) (h : Faithful known e) :
    e.Neutral ∨ Rendered known false e := by
  unfold Faithful at h
  by_cases htext : e.text = []
  · rw [if_pos htext] at h
    exact Or.inl ⟨tests_of_meaning (h fun _ => true), (text_eq_nil_iff e).mp htext⟩
  · rw [if_neg htext] at h
    obtain ⟨clauses, hparsed, hmeaning⟩ := h
    have hread : ReadAs known false e clauses :=
      ⟨hparsed, fun env => by rw [hmeaning, Bool.bne_false]⟩
    exact Or.inr (hread.rendered hnodup)

theorem faithful_of_rendered {e : FilterExpr} (h : e.Neutral ∨ Rendered known false e) :
    Faithful known e := by
  obtain hneutral | hrendered := h
  · exact hneutral.faithful
  · exact hrendered.faithful

/-- A text says what its expression means if it keeps its structure. Unless tests are repeated, it
says so in no other case. -/
theorem faithful_rendered (known : Test → Bool) (e : FilterExpr) :
    (e.Neutral ∨ Rendered known false e → Faithful known e) ∧
      (e.tests.Nodup → (Faithful known e ↔ e.Neutral ∨ Rendered known false e)) :=
  ⟨faithful_of_rendered, fun hnodup => ⟨Faithful.rendered hnodup, faithful_of_rendered⟩⟩

/-- A conjunction with a disjunction is written without parentheses, and no vocabulary helps. -/
theorem ungrouped_not_faithful :
    (FilterExpr.and (.atom .ipv4) (.or (.atom .tcp) (.atom .udp))).text =
        "ip and tcp or udp".toList ∧
      ∀ known, ¬ Faithful known (.and (.atom .ipv4) (.or (.atom .tcp) (.atom .udp))) := by
  refine ⟨by decide, ?_⟩
  intro known hfaithful
  obtain hneutral | hrendered := hfaithful.rendered (by decide)
  · exact hneutral.2.1
  · obtain ⟨hneutral, -⟩ | ⟨hneutral, -⟩ | ⟨-, -, -, -, hsingle⟩ := hrendered
    · cases hneutral.1
    · cases hneutral.1
    · exact hsingle (List.cons_ne_nil _ _)

section Client

open WinDivertClientVPNNetDriver

/-- The client joins its filters as one expression. -/
theorem calculateOutgoingFilters_text (e : FilterExpr) (es : List FilterExpr) :
    (es.map text).foldl operatorAnd e.text = (es.foldl .and e).text := by
  induction es generalizing e with
  | nil => rfl
  | cons e' es ih => exact ih (.and e e')

/-- Filters without disjunctions can be joined. -/
theorem rendered_foldl {e : FilterExpr} (he : e.Neutral ∨ Rendered known false e ∧ ¬ e.Disjunctive)
    {es : List FilterExpr} (h : ∀ e' ∈ es, Rendered known false e' ∧ ¬ e'.Disjunctive) :
    (es.foldl .and e).Neutral ∨
      Rendered known false (es.foldl .and e) ∧ ¬ (es.foldl .and e).Disjunctive := by
  induction es generalizing e with
  | nil => exact he
  | cons e' es ih =>
    obtain ⟨hrendered', hsingle'⟩ := h e' List.mem_cons_self
    apply ih _ fun e hmem => h e (List.mem_cons_of_mem _ hmem)
    obtain hneutral | ⟨hrendered, hsingle⟩ := he
    · exact Or.inr ⟨Or.inr (Or.inl ⟨hneutral, hrendered'⟩),
        not_or.mpr ⟨not_disjunctive_of_tests hneutral.1, hsingle'⟩⟩
    · exact Or.inr ⟨Or.inr (Or.inr ⟨rfl, hrendered, hrendered', hsingle, hsingle'⟩),
        not_or.mpr ⟨hsingle, hsingle'⟩⟩

/-- An atom that is a single test can be joined, and so can its negation. -/
theorem rendered_single (a : FilterAtom) (hsupported : a.Supported) (hsingle : a.tests.length = 1)
    (hknown : ∀ t ∈ a.tests, known t = true) (negation : Bool) :
    Rendered known negation (.atom a) ∧ ¬ (FilterExpr.atom a).Disjunctive := by
  refine ⟨⟨hsupported, hknown, fun _ => hsingle⟩, ?_⟩
  rw [Disjunctive, hsingle]
  exact Nat.lt_irrefl 1

/-- The filters a client starts with say what is meant, if the server has a known address. -/
theorem defaultOutgoingFilter_faithful {vpnAddress : NetAddr}
    (haddr : vpnAddress.getAddrFamily = .IPv4 ∨ vpnAddress.getAddrFamily = .IPv6)
    (hknown : ∀ e ∈ defaultOutgoingFilter vpnAddress, ∀ t ∈ e.tests, known t = true) :
    calculateOutgoingFilters ((defaultOutgoingFilter vpnAddress).map text) =
        ((defaultOutgoingFilter vpnAddress).foldl .and FilterExpr.empty).text ∧
      Faithful known ((defaultOutgoingFilter vpnAddress).foldl .and FilterExpr.empty) := by
  refine ⟨calculateOutgoingFilters_text .empty _, ?_⟩
  have hsource : (addrTests "ip.SrcAddr" "ip6.SrcAddr" vpnAddress).length = 1 := by
    unfold addrTests
    split
    · rfl
    · split <;> rfl
  simp only [defaultOutgoingFilter, List.forall_mem_cons] at hknown
  obtain ⟨hserver, houtgoing, hssh, hlocal, hdest, hport, -⟩ := hknown
  have hfilters : ∀ e ∈ defaultOutgoingFilter vpnAddress,
      Rendered known false e ∧ ¬ e.Disjunctive := by
    simp only [defaultOutgoingFilter, List.forall_mem_cons]
    exact ⟨rendered_single (.source vpnAddress) haddr hsource hserver true,
      rendered_single .outgoingTraffic trivial rfl houtgoing false,
      rendered_single (.tcpDstPort 22) trivial rfl hssh true,
      rendered_single .localTraffic trivial rfl hlocal true,
      rendered_single (.dest _) (Or.inl rfl) rfl hdest false,
      rendered_single (.tcpDstPort 8080) trivial rfl hport false, fun _ he => nomatch he⟩
  have hjoined := rendered_foldl (Or.inl ⟨rfl, trivial⟩ : FilterExpr.empty.Neutral ∨ _) hfilters
  exact faithful_of_rendered (hjoined.imp_right And.left)

end Client

end FilterExpr

end QVPN
