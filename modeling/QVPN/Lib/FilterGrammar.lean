import Mathlib.Data.List.Basic

/-!
# A flat filter language

Filters of packets are written as disjunctions of conjunctions of tests. `and` and `&&` bind tighter
than `or` and `||`; there are no parentheses, and `!` and `not` apply to the test that follows. A
test names a flag, or compares a field with a value for equality or inequality. Which tests exist is
a matter of the vocabulary, a parameter here.

The lexer reads one character at a time and keeps the piece of a token that is not complete yet.
The parser keeps the tokens of the test that is not complete yet. Both are stated with rules for
what stands on the two sides of a separator.
-/

namespace FilterGrammar

inductive Token where
  | word (w : List Char)
  | eq
  | neq
  | not
  | and
  | or
  | bad
  deriving DecidableEq, Repr

/-- Three words are operators. -/
def keyword (w : List Char) : Token :=
  if w = ['a', 'n', 'd'] then .and
  else if w = ['o', 'r'] then .or
  else if w = ['n', 'o', 't'] then .not
  else .word w

/-- The piece of a token that was read last. -/
inductive Pending where
  | word (w : List Char)
  | bang
  | bar
  | amp
  deriving DecidableEq, Repr

/-- The tokens of a piece that is not continued. -/
def Pending.tokens : Pending → List Token
  | .word w => if w = [] then [] else [keyword w]
  | .bang => [.not]
  | .bar => [.bad]
  | .amp => [.bad]

/-- The tokens that a character completes, and the piece that is left. -/
def lexChar (p : Pending) (c : Char) : List Token × Pending :=
  if c = ' ' then (p.tokens, .word [])
  else if c = '=' then
    match p with
    | .bang => ([.neq], .word [])
    | p => (p.tokens ++ [.eq], .word [])
  else if c = '!' then (p.tokens, .bang)
  else if c = '|' then
    match p with
    | .bar => ([.or], .word [])
    | p => (p.tokens, .bar)
  else if c = '&' then
    match p with
    | .amp => ([.and], .word [])
    | p => (p.tokens, .amp)
  else
    match p with
    | .word w => ([], .word (w ++ [c]))
    | p => (p.tokens, .word [c])

def lexFrom : Pending → List Char → List Token
  | p, [] => p.tokens
  | p, c :: cs => (lexChar p c).1 ++ lexFrom (lexChar p c).2 cs

/-- The tokens of a text. -/
def lex (cs : List Char) : List Token := lexFrom (.word []) cs

/-- A flag, or a field that is compared with a value. -/
inductive Test where
  | flag (name : List Char)
  | compare (field value : List Char)
  deriving DecidableEq, Repr

/-- A test and whether it is to hold. -/
abbrev Literal := Bool × Test

/-- The opposite literal. -/
def negated (l : Literal) : Literal := (!l.1, l.2)

section Parser

variable (known : Test → Bool)

/-- A test of the vocabulary, as it is. -/
def literal (positive : Bool) (t : Test) : Option Literal :=
  if known t then some (positive, t) else none

/-- A single test, negated any number of times. -/
def parseTest : List Token → Option Literal
  | .not :: ts => (parseTest ts).map negated
  | [.word name] => literal known true (.flag name)
  | [.word field, .eq, .word value] => literal known true (.compare field value)
  | [.word field, .neq, .word value] => literal known false (.compare field value)
  | _ => none

/-- A literal in front of the first conjunction. -/
def consLiteral (l : Literal) : List (List Literal) → List (List Literal)
  | [] => [[l]]
  | clause :: clauses => (l :: clause) :: clauses

/-- The conjunctions of a filter whose first test begins with the given tokens. -/
def parseFrom : List Token → List Token → Option (List (List Literal))
  | test, [] => (parseTest known test).map fun l => [[l]]
  | test, .and :: ts => do
    let l ← parseTest known test
    let clauses ← parseFrom [] ts
    return consLiteral l clauses
  | test, .or :: ts => do
    let l ← parseTest known test
    let clauses ← parseFrom [] ts
    return [l] :: clauses
  | test, t :: ts => parseFrom (test ++ [t]) ts

/-- The conjunctions whose disjunction a filter is, if it is one. -/
def parse (ts : List Token) : Option (List (List Literal)) := parseFrom known [] ts

end Parser

/-- Whether a literal holds of what the tests say about a packet. -/
def evalLiteral (env : Test → Bool) (l : Literal) : Bool := env l.2 == l.1

/-- Whether some conjunction holds. -/
def eval (env : Test → Bool) (clauses : List (List Literal)) : Bool :=
  clauses.any fun clause => clause.all (evalLiteral env)

/-- The last conjunction of one filter joined with the first of another. -/
def fuse : List (List Literal) → List (List Literal) → List (List Literal)
  | [], clauses => clauses
  | [clause], [] => [clause]
  | [clause], first :: clauses => (clause ++ first) :: clauses
  | clause :: next :: rest, clauses => clause :: fuse (next :: rest) clauses

section Lexer

/-- A blank ends the token before it. -/
theorem lexFrom_space (p : Pending) (xs ys : List Char) :
    lexFrom p (xs ++ ' ' :: ys) = lexFrom p xs ++ lex ys := by
  induction xs generalizing p with
  | nil => rfl
  | cons x xs ih => rw [List.cons_append, lexFrom, ih, lexFrom, List.append_assoc]

/-- An inequality sign ends the token before it. -/
theorem lexFrom_neq (p : Pending) (xs ys : List Char) :
    lexFrom p (xs ++ '!' :: '=' :: ys) = lexFrom p xs ++ .neq :: lex ys := by
  induction xs generalizing p with
  | nil => rfl
  | cons x xs ih => rw [List.cons_append, lexFrom, ih, lexFrom, List.append_assoc]

/-- An equality sign ends the token before it, unless that is an exclamation mark. -/
theorem lexFrom_eq (p : Pending) (xs ys : List Char) :
    lexFrom p (xs ++ '=' :: ys) = lexFrom p xs ++ .eq :: lex ys ∨
      ∃ ts, lexFrom p xs = ts ++ [.not] ∧ lexFrom p (xs ++ '=' :: ys) = ts ++ .neq :: lex ys := by
  induction xs generalizing p with
  | nil =>
    cases p with
    | bang => exact Or.inr ⟨[], rfl, rfl⟩
    | word w => exact Or.inl (List.append_assoc _ _ _)
    | bar => exact Or.inl rfl
    | amp => exact Or.inl rfl
  | cons x xs ih =>
    obtain heq | ⟨ts, hnot, hneq⟩ := ih (lexChar p x).2
    · exact Or.inl (by rw [List.cons_append, lexFrom, heq, lexFrom, List.append_assoc])
    · refine Or.inr ⟨(lexChar p x).1 ++ ts, ?_, ?_⟩
      · rw [lexFrom, hnot, List.append_assoc]
      · rw [List.cons_append, lexFrom, hneq, List.append_assoc]

/-- A comparison sign is read from an equality sign. -/
def Comparison (t : Token) : Prop := t = .eq ∨ t = .neq

theorem keyword_not_comparison (w : List Char) : ¬ Comparison (keyword w) := by
  unfold keyword
  split
  · simp [Comparison]
  · split
    · simp [Comparison]
    · split <;> simp [Comparison]

theorem tokens_not_comparison {p : Pending} {t : Token} (h : t ∈ p.tokens) : ¬ Comparison t := by
  cases p with
  | word w =>
    rw [Pending.tokens] at h
    split at h
    · cases h
    · rw [List.mem_singleton.mp h]
      exact keyword_not_comparison w
  | bang => rw [List.mem_singleton.mp h]; simp [Comparison]
  | bar => rw [List.mem_singleton.mp h]; simp [Comparison]
  | amp => rw [List.mem_singleton.mp h]; simp [Comparison]

theorem lexFrom_not_comparison {xs : List Char} (h : '=' ∉ xs) (p : Pending) :
    ∀ t ∈ lexFrom p xs, ¬ Comparison t := by
  induction xs generalizing p with
  | nil =>
    intro t ht
    exact tokens_not_comparison ht
  | cons x xs ih =>
    rw [List.mem_cons, not_or] at h
    intro t ht
    rw [lexFrom, List.mem_append] at ht
    obtain ht | ht := ht
    · have hchar : t ∈ p.tokens ∨ t = .or ∨ t = .and := by
        unfold lexChar at ht
        rw [if_neg (Ne.symm h.1)] at ht
        split at ht
        · exact Or.inl ht
        · split at ht
          · exact Or.inl ht
          · split at ht
            · split at ht
              · exact Or.inr (Or.inl (List.mem_singleton.mp ht))
              · exact Or.inl ht
            · split at ht
              · split at ht
                · exact Or.inr (Or.inr (List.mem_singleton.mp ht))
                · exact Or.inl ht
              · split at ht
                · cases ht
                · exact Or.inl ht
      obtain ht | rfl | rfl := hchar
      · exact tokens_not_comparison ht
      · simp [Comparison]
      · simp [Comparison]
    · exact ih h.2 _ t ht

/-- An exclamation mark in front of anything but an equality sign is a token of its own. -/
theorem lex_bang {xs : List Char} (h : '=' ∉ xs) : lex ('!' :: xs) = .not :: lex xs := by
  have hbang : lex ('!' :: xs) = lexFrom .bang xs := rfl
  rw [hbang, lex]
  cases xs with
  | nil => rfl
  | cons x xs =>
    rw [List.mem_cons, not_or] at h
    have hchar : lexChar .bang x =
        (.not :: (lexChar (.word []) x).1, (lexChar (.word []) x).2) := by
      unfold lexChar
      rw [if_neg (Ne.symm h.1), if_neg (Ne.symm h.1)]
      split
      · rfl
      · split
        · rfl
        · split
          · rfl
          · split
            · rfl
            · rfl
    rw [lexFrom, lexFrom, hchar, List.cons_append]

/-- A character that is part of words only. -/
def Plain (c : Char) : Prop := c ≠ ' ' ∧ c ≠ '=' ∧ c ≠ '!' ∧ c ≠ '|' ∧ c ≠ '&'

/-- Plain characters are one word. -/
theorem lexFrom_plain {xs : List Char} (h : ∀ c ∈ xs, Plain c) (w : List Char) :
    lexFrom (.word w) xs = Pending.tokens (.word (w ++ xs)) := by
  induction xs generalizing w with
  | nil => rw [List.append_nil, lexFrom]
  | cons x xs ih =>
    obtain ⟨hblank, heq, hbang, hbar, hamp⟩ := h x List.mem_cons_self
    have hchar : lexChar (.word w) x = ([], .word (w ++ [x])) := by
      unfold lexChar
      rw [if_neg hblank, if_neg heq, if_neg hbang, if_neg hbar, if_neg hamp]
    rw [lexFrom, hchar, List.nil_append, ih (fun c hc => h c (List.mem_cons_of_mem x hc)),
      List.append_assoc, List.singleton_append]

end Lexer

section Rules

variable {known : Test → Bool}

/-- A filter has a conjunction, and every conjunction a literal. -/
theorem parseFrom_ne_nil {ts test : List Token} {clauses : List (List Literal)}
    (h : parseFrom known test ts = some clauses) :
    clauses ≠ [] ∧ ∀ clause ∈ clauses, clause ≠ [] := by
  induction ts generalizing test clauses with
  | nil =>
    obtain ⟨l, -, rfl⟩ := Option.map_eq_some_iff.mp h
    exact ⟨List.cons_ne_nil _ _, by simp⟩
  | cons t ts ih =>
    cases t with
    | and =>
      obtain ⟨l, -, h⟩ := Option.bind_eq_some_iff.mp h
      obtain ⟨rest, hrest, h⟩ := Option.bind_eq_some_iff.mp h
      obtain ⟨hne, hclauses⟩ := ih hrest
      cases Option.some.inj h
      cases rest with
      | nil => exact absurd rfl hne
      | cons clause rest =>
        refine ⟨List.cons_ne_nil _ _, ?_⟩
        intro k hk
        obtain rfl | hk := List.mem_cons.mp hk
        · exact List.cons_ne_nil _ _
        · exact hclauses k (List.mem_cons_of_mem _ hk)
    | or =>
      obtain ⟨l, -, h⟩ := Option.bind_eq_some_iff.mp h
      obtain ⟨rest, hrest, h⟩ := Option.bind_eq_some_iff.mp h
      cases Option.some.inj h
      refine ⟨List.cons_ne_nil _ _, ?_⟩
      intro k hk
      obtain rfl | hk := List.mem_cons.mp hk
      · exact List.cons_ne_nil _ _
      · exact (ih hrest).2 k hk
    | word w => exact ih h
    | eq => exact ih h
    | neq => exact ih h
    | not => exact ih h
    | bad => exact ih h

/-- Joining filters at conjunctions that are known. -/
theorem fuse_append (before : List (List Literal)) (last first : List Literal)
    (after : List (List Literal)) :
    fuse (before ++ [last]) (first :: after) = before ++ (last ++ first) :: after := by
  induction before with
  | nil => rfl
  | cons clause before ih =>
    cases before with
    | nil => rfl
    | cons next before =>
      rw [List.cons_append, List.cons_append, fuse]
      exact congrArg (List.cons clause) ih

theorem fuse_cons {clauses : List (List Literal)} (h : clauses ≠ []) (clause : List Literal)
    (others : List (List Literal)) :
    fuse (clause :: clauses) others = clause :: fuse clauses others := by
  cases clauses with
  | nil => exact absurd rfl h
  | cons next rest => rfl

theorem consLiteral_fuse (l : Literal) {clauses others : List (List Literal)} (h : others ≠ []) :
    consLiteral l (fuse clauses others) = fuse (consLiteral l clauses) others := by
  cases clauses with
  | nil =>
    cases others with
    | nil => exact absurd rfl h
    | cons first others => rfl
  | cons clause rest =>
    cases rest with
    | nil =>
      cases others with
      | nil => exact absurd rfl h
      | cons first others => rfl
    | cons next rest => rfl

/-- Filters on the two sides of a conjunction are read one by one, and joined at it. -/
theorem parseFrom_and (test xs ys : List Token) :
    parseFrom known test (xs ++ .and :: ys) = (do
      let clauses ← parseFrom known test xs
      let others ← parse known ys
      return fuse clauses others) := by
  induction xs generalizing test with
  | nil =>
    rw [List.nil_append, parseFrom, parseFrom]
    cases parseTest known test with
    | none => rfl
    | some l =>
      cases hys : parse known ys with
      | none =>
        rw [parse] at hys
        simp [hys]
      | some others =>
        have hne := (parseFrom_ne_nil hys).1
        rw [parse] at hys
        cases others with
        | nil => exact absurd rfl hne
        | cons first others => simp [hys, consLiteral, fuse]
  | cons x xs ih =>
    cases x with
    | and =>
      rw [List.cons_append, parseFrom, parseFrom, ih]
      cases parseTest known test with
      | none => rfl
      | some l =>
        cases parseFrom known [] xs with
        | none => rfl
        | some clauses =>
          cases hys : parse known ys with
          | none => rfl
          | some others => simp [consLiteral_fuse l (parseFrom_ne_nil hys).1]
    | or =>
      rw [List.cons_append, parseFrom, parseFrom, ih]
      cases parseTest known test with
      | none => rfl
      | some l =>
        cases hxs : parseFrom known [] xs with
        | none => rfl
        | some clauses =>
          cases parse known ys with
          | none => rfl
          | some others => simp [fuse_cons (parseFrom_ne_nil hxs).1]
    | word w => exact ih _
    | eq => exact ih _
    | neq => exact ih _
    | not => exact ih _
    | bad => exact ih _

/-- Filters on the two sides of a disjunction are read one by one. -/
theorem parseFrom_or (test xs ys : List Token) :
    parseFrom known test (xs ++ .or :: ys) = (do
      let clauses ← parseFrom known test xs
      let others ← parse known ys
      return clauses ++ others) := by
  induction xs generalizing test with
  | nil =>
    rw [List.nil_append, parseFrom, parseFrom]
    cases parseTest known test with
    | none => rfl
    | some l => rfl
  | cons x xs ih =>
    cases x with
    | and =>
      rw [List.cons_append, parseFrom, parseFrom, ih]
      cases parseTest known test with
      | none => rfl
      | some l =>
        cases hxs : parseFrom known [] xs with
        | none => rfl
        | some clauses =>
          cases parse known ys with
          | none => rfl
          | some others =>
            cases clauses with
            | nil => exact absurd rfl (parseFrom_ne_nil hxs).1
            | cons clause clauses => rfl
    | or =>
      rw [List.cons_append, parseFrom, parseFrom, ih]
      cases parseTest known test with
      | none => rfl
      | some l =>
        cases parseFrom known [] xs with
        | none => rfl
        | some clauses =>
          cases parse known ys with
          | none => rfl
          | some others => rfl
    | word w => exact ih _
    | eq => exact ih _
    | neq => exact ih _
    | not => exact ih _
    | bad => exact ih _

/-- A test that begins with a word has nothing else or a comparison with a word. -/
theorem parseTest_word_long (w : List Char) (x y z : Token) (ts : List Token) :
    parseTest known (.word w :: x :: y :: z :: ts) = none := by
  cases x with
  | eq => cases y <;> rfl
  | neq => cases y <;> rfl
  | _ => rfl

/-- Turning the comparison of a test around negates the test. -/
theorem parseTest_neq (before after : List Token) :
    parseTest known (before ++ .neq :: after) =
      (parseTest known (before ++ .eq :: after)).map negated := by
  induction before with
  | nil => rfl
  | cons t before ih =>
    cases t with
    | not => rw [List.cons_append, List.cons_append, parseTest, parseTest, ih]
    | word w =>
      cases before with
      | nil =>
        -- the comparison stands behind the field
        cases after with
        | nil => rfl
        | cons v after =>
          cases after with
          | nil =>
            cases v with
            | word v =>
              simp only [List.cons_append, List.nil_append, parseTest, literal]
              split <;> rfl
            | _ => rfl
          | cons u after =>
            rw [List.cons_append, List.nil_append, List.cons_append, List.nil_append,
              parseTest_word_long, parseTest_word_long]
            rfl
      | cons x before =>
        cases before with
        | nil =>
          cases after with
          | nil => cases x <;> rfl
          | cons v after =>
            rw [List.cons_append, List.cons_append, List.nil_append, List.cons_append,
              List.cons_append, List.nil_append, parseTest_word_long, parseTest_word_long]
            rfl
        | cons y before =>
          cases before with
          | nil =>
            rw [List.cons_append, List.cons_append, List.cons_append, List.nil_append,
              List.cons_append, List.cons_append, List.cons_append, List.nil_append,
              parseTest_word_long, parseTest_word_long]
            rfl
          | cons z before =>
            rw [List.cons_append, List.cons_append, List.cons_append, List.cons_append,
              List.cons_append, List.cons_append, List.cons_append, List.cons_append,
              parseTest_word_long, parseTest_word_long]
            rfl
    | eq => rfl
    | neq => rfl
    | and => rfl
    | or => rfl
    | bad => rfl

/-- An inequality sign behind an exclamation mark belongs to no test. -/
theorem parseTest_not_neq (before after : List Token) :
    parseTest known (before ++ .not :: .neq :: after) = none := by
  induction before with
  | nil => rfl
  | cons t before ih =>
    cases t with
    | not => rw [List.cons_append, parseTest, ih, Option.map_none]
    | word w =>
      cases before with
      | nil =>
        cases after with
        | nil => rfl
        | cons v after => exact parseTest_word_long _ _ _ _ _
      | cons x before =>
        cases before with
        | nil => exact parseTest_word_long _ _ _ _ _
        | cons y before =>
          cases before with
          | nil => exact parseTest_word_long _ _ _ _ _
          | cons z before => exact parseTest_word_long _ _ _ _ _
    | eq => rfl
    | neq => rfl
    | and => rfl
    | or => rfl
    | bad => rfl

/-- The first literal of a filter negated. -/
def negateFirst : List (List Literal) → List (List Literal)
  | (l :: clause) :: clauses => (negated l :: clause) :: clauses
  | clauses => clauses

theorem negateFirst_negateFirst (clauses : List (List Literal)) :
    negateFirst (negateFirst clauses) = clauses := by
  cases clauses with
  | nil => rfl
  | cons clause clauses =>
    cases clause with
    | nil => rfl
    | cons l clause => simp [negateFirst, negated]

/-- Tests that are negations of each other make filters that differ in their first literal. -/
theorem parseFrom_negated {test test' : List Token}
    (h : ∀ after, parseTest known (test' ++ after) = (parseTest known (test ++ after)).map negated)
    (ts : List Token) :
    parseFrom known test' ts = (parseFrom known test ts).map negateFirst := by
  induction ts generalizing test test' with
  | nil =>
    have hend := h []
    rw [List.append_nil, List.append_nil] at hend
    rw [parseFrom, parseFrom, hend]
    cases parseTest known test with
    | none => rfl
    | some l => rfl
  | cons t ts ih =>
    have hend := h []
    rw [List.append_nil, List.append_nil] at hend
    have hnext (t : Token) : parseFrom known (test' ++ [t]) ts =
        (parseFrom known (test ++ [t]) ts).map negateFirst := by
      apply ih
      intro after
      rw [List.append_assoc, List.append_assoc]
      exact h ([t] ++ after)
    cases t with
    | and =>
      rw [parseFrom, parseFrom, hend]
      cases parseTest known test with
      | none => rfl
      | some l =>
        cases parseFrom known [] ts with
        | none => rfl
        | some clauses => cases clauses <;> rfl
    | or =>
      rw [parseFrom, parseFrom, hend]
      cases parseTest known test with
      | none => rfl
      | some l => cases parseFrom known [] ts <;> rfl
    | word w => exact hnext _
    | eq => exact hnext _
    | neq => exact hnext _
    | not => exact hnext _
    | bad => exact hnext _

/-- A filter behind an exclamation mark has its first literal negated. -/
theorem parse_not (ts : List Token) :
    parse known (.not :: ts) = (parse known ts).map negateFirst := by
  have hnot : ∀ after, parseTest known ([.not] ++ after) =
      (parseTest known ([] ++ after)).map negated := fun _ => rfl
  exact parseFrom_negated hnot ts

/-- The same tests in the same conjunctions. -/
def SameTests (clauses clauses' : List (List Literal)) : Prop :=
  clauses.map (List.map Prod.snd) = clauses'.map (List.map Prod.snd)

theorem sameTests_negateFirst (clauses : List (List Literal)) :
    SameTests (negateFirst clauses) clauses := by
  cases clauses with
  | nil => rfl
  | cons clause clauses => cases clause <;> rfl

/-- Where a comparison is turned around, the filter keeps its tests. -/
theorem parseFrom_neq {test before after : List Token} {clauses : List (List Literal)}
    (h : parseFrom known test (before ++ .neq :: after) = some clauses) :
    ∃ clauses', parseFrom known test (before ++ .eq :: after) = some clauses' ∧
      SameTests clauses clauses' := by
  induction before generalizing test clauses with
  | nil =>
    have hturned : ∀ rest, parseTest known ((test ++ [.neq]) ++ rest) =
        (parseTest known ((test ++ [.eq]) ++ rest)).map negated := by
      intro rest
      rw [List.append_assoc, List.append_assoc]
      exact parseTest_neq test rest
    have hparse : parseFrom known (test ++ [.neq]) after = some clauses := h
    rw [parseFrom_negated hturned] at hparse
    obtain ⟨clauses', hclauses', rfl⟩ := Option.map_eq_some_iff.mp hparse
    exact ⟨clauses', hclauses', sameTests_negateFirst clauses'⟩
  | cons t before ih =>
    cases t with
    | and =>
      obtain ⟨l, hl, h⟩ := Option.bind_eq_some_iff.mp h
      obtain ⟨rest, hrest, h⟩ := Option.bind_eq_some_iff.mp h
      obtain ⟨rest', hrest', hsame⟩ := ih hrest
      cases Option.some.inj h
      refine ⟨consLiteral l rest', ?_, ?_⟩
      · rw [List.cons_append, parseFrom, hl]
        simp [hrest']
      · unfold SameTests at hsame ⊢
        cases rest with
        | nil =>
          cases rest' with
          | nil => rfl
          | cons clause' rest' => cases hsame
        | cons clause rest =>
          cases rest' with
          | nil => cases hsame
          | cons clause' rest' =>
            simp only [List.map_cons, List.cons.injEq, consLiteral] at hsame ⊢
            exact ⟨⟨trivial, hsame.1⟩, hsame.2⟩
    | or =>
      obtain ⟨l, hl, h⟩ := Option.bind_eq_some_iff.mp h
      obtain ⟨rest, hrest, h⟩ := Option.bind_eq_some_iff.mp h
      obtain ⟨rest', hrest', hsame⟩ := ih hrest
      cases Option.some.inj h
      refine ⟨[l] :: rest', ?_, ?_⟩
      · rw [List.cons_append, parseFrom, hl]
        simp [hrest']
      · exact congrArg (List.cons [l.2]) hsame
    | word w => exact ih h
    | eq => exact ih h
    | neq => exact ih h
    | not => exact ih h
    | bad => exact ih h

/-- Tests that cannot be completed make no filter. -/
theorem parseFrom_none {test : List Token} (h : ∀ after, parseTest known (test ++ after) = none)
    (ts : List Token) : parseFrom known test ts = none := by
  induction ts generalizing test with
  | nil =>
    have hend := h []
    rw [List.append_nil] at hend
    rw [parseFrom, hend, Option.map_none]
  | cons t ts ih =>
    have hend := h []
    rw [List.append_nil] at hend
    have hnext (t : Token) : parseFrom known (test ++ [t]) ts = none := by
      apply ih
      intro after
      rw [List.append_assoc]
      exact h ([t] ++ after)
    cases t with
    | and => rw [parseFrom, hend]; rfl
    | or => rw [parseFrom, hend]; rfl
    | word w => exact hnext _
    | eq => exact hnext _
    | neq => exact hnext _
    | not => exact hnext _
    | bad => exact hnext _

/-- Nowhere does an inequality sign behind an exclamation mark belong to a filter. -/
theorem parseFrom_not_neq (test before after : List Token) :
    parseFrom known test (before ++ .not :: .neq :: after) = none := by
  induction before generalizing test with
  | nil =>
    have hnone : ∀ rest, parseTest known ((test ++ [.not] ++ [.neq]) ++ rest) = none := by
      intro rest
      rw [List.append_assoc, List.append_assoc]
      exact parseTest_not_neq test rest
    exact parseFrom_none hnone after
  | cons t before ih =>
    cases t with
    | and =>
      rw [List.cons_append, parseFrom, ih]
      cases parseTest known test <;> rfl
    | or =>
      rw [List.cons_append, parseFrom, ih]
      cases parseTest known test <;> rfl
    | word w => exact ih _
    | eq => exact ih _
    | neq => exact ih _
    | not => exact ih _
    | bad => exact ih _

/-- A flag that holds. -/
theorem parse_flag {name : List Char} (h : known (.flag name) = true) :
    parse known [.word name] = some [[(true, .flag name)]] := by
  have htest : parseTest known [.word name] = some (true, .flag name) := if_pos h
  exact congrArg (Option.map fun l => [[l]]) htest

/-- A field that equals a value. -/
theorem parse_compare {field value : List Char} (h : known (.compare field value) = true) :
    parse known [.word field, .eq, .word value] = some [[(true, .compare field value)]] := by
  have htest : parseTest known [.word field, .eq, .word value] =
      some (true, .compare field value) := if_pos h
  exact congrArg (Option.map fun l => [[l]]) htest

/-- A field that differs from a value. -/
theorem parse_differ {field value : List Char} (h : known (.compare field value) = true) :
    parse known [.word field, .neq, .word value] = some [[(false, .compare field value)]] := by
  have htest : parseTest known [.word field, .neq, .word value] =
      some (false, .compare field value) := if_pos h
  exact congrArg (Option.map fun l => [[l]]) htest

theorem literal_inversion {positive : Bool} {t : Test} {l : Literal}
    (h : literal known positive t = some l) : known t = true ∧ l = (positive, t) := by
  unfold literal at h
  split at h
  · exact ⟨by assumption, (Option.some.inj h).symm⟩
  · cases h

/-- A word alone is a flag of the vocabulary. -/
theorem parse_flag_inversion {name : List Char} {clauses : List (List Literal)}
    (h : parse known [.word name] = some clauses) :
    known (.flag name) = true ∧ clauses = [[(true, .flag name)]] := by
  obtain ⟨l, hl, rfl⟩ := Option.map_eq_some_iff.mp h
  obtain ⟨hknown, rfl⟩ := literal_inversion hl
  exact ⟨hknown, rfl⟩

/-- Two words around an equality sign are a comparison of the vocabulary. -/
theorem parse_compare_inversion {field value : List Char} {clauses : List (List Literal)}
    (h : parse known [.word field, .eq, .word value] = some clauses) :
    known (.compare field value) = true ∧ clauses = [[(true, .compare field value)]] := by
  obtain ⟨l, hl, rfl⟩ := Option.map_eq_some_iff.mp h
  obtain ⟨hknown, rfl⟩ := literal_inversion hl
  exact ⟨hknown, rfl⟩

theorem parse_and {xs ys : List Token} {last first : List Literal}
    (hxs : parse known xs = some [last]) (hys : parse known ys = some [first]) :
    parse known (xs ++ .and :: ys) = some [last ++ first] := by
  rw [parse] at hxs
  rw [parse, parseFrom_and, hxs, hys]
  rfl

theorem parse_or {xs ys : List Token} {clauses others : List (List Literal)}
    (hxs : parse known xs = some clauses) (hys : parse known ys = some others) :
    parse known (xs ++ .or :: ys) = some (clauses ++ others) := by
  rw [parse] at hxs
  rw [parse, parseFrom_or, hxs, hys]
  rfl

/-- A filter with a conjunction is read from filters on both sides of it. -/
theorem parse_and_inversion {xs ys : List Token} {clauses : List (List Literal)}
    (h : parse known (xs ++ .and :: ys) = some clauses) :
    ∃ before last first after, parse known xs = some (before ++ [last]) ∧
      parse known ys = some (first :: after) ∧ clauses = before ++ (last ++ first) :: after := by
  rw [parse, parseFrom_and] at h
  obtain ⟨left, hleft, h⟩ := Option.bind_eq_some_iff.mp h
  obtain ⟨right, hright, h⟩ := Option.bind_eq_some_iff.mp h
  cases Option.some.inj h
  have hne := (parseFrom_ne_nil hleft).1
  cases right with
  | nil => exact absurd rfl (parseFrom_ne_nil hright).1
  | cons first after =>
    refine ⟨left.dropLast, left.getLast hne, first, after, ?_, hright, ?_⟩
    · rw [List.dropLast_append_getLast]
      exact hleft
    · rw [← fuse_append, List.dropLast_append_getLast]

/-- A filter with a disjunction is read from filters on both sides of it. -/
theorem parse_or_inversion {xs ys : List Token} {clauses : List (List Literal)}
    (h : parse known (xs ++ .or :: ys) = some clauses) :
    ∃ left right, parse known xs = some left ∧ parse known ys = some right ∧
      clauses = left ++ right := by
  rw [parse, parseFrom_or] at h
  obtain ⟨left, hleft, h⟩ := Option.bind_eq_some_iff.mp h
  obtain ⟨right, hright, h⟩ := Option.bind_eq_some_iff.mp h
  exact ⟨left, right, hleft, hright, (Option.some.inj h).symm⟩

end Rules

/-- The tokens of a text before and after an exclamation mark is put before its first equality
sign, or to its front if there is none. -/
inductive Negates : List Token → List Token → Prop where
  | front {ts : List Token} (h : ∀ t ∈ ts, ¬ Comparison t) : Negates ts (.not :: ts)
  | eq {before after : List Token} (h : ∀ t ∈ before, ¬ Comparison t) :
      Negates (before ++ .eq :: after) (before ++ .neq :: after)
  | neq {before after : List Token} (h : ∀ t ∈ before, ¬ Comparison t) :
      Negates (before ++ .neq :: after) (before ++ .not :: .neq :: after)

section Negation

variable {known : Test → Bool}

/-- A negated filter has the tests of the filter. -/
theorem Negates.sameTests {ts ts' : List Token} (h : Negates ts ts') {clauses : List (List Literal)}
    (hparse : parse known ts' = some clauses) :
    ∃ clauses', parse known ts = some clauses' ∧ SameTests clauses clauses' := by
  cases h with
  | front _ =>
    rw [parse_not] at hparse
    obtain ⟨clauses', hclauses', rfl⟩ := Option.map_eq_some_iff.mp hparse
    exact ⟨clauses', hclauses', sameTests_negateFirst clauses'⟩
  | eq _ => exact parseFrom_neq hparse
  | neq _ =>
    rw [parse, parseFrom_not_neq] at hparse
    cases hparse

/-- Negation leaves a comparison. -/
theorem Negates.comparison {ts ts' : List Token} (h : Negates ts ts')
    (hts : ∃ t ∈ ts, Comparison t) : ∃ t ∈ ts', Comparison t := by
  cases h with
  | front _ =>
    obtain ⟨t, ht, hcomparison⟩ := hts
    exact ⟨t, List.mem_cons_of_mem _ ht, hcomparison⟩
  | eq _ => exact ⟨.neq, by simp, Or.inr rfl⟩
  | neq _ => exact ⟨.neq, by simp, Or.inr rfl⟩

/-- The first comparison of a text is found at one place. -/
theorem first_comparison_unique {before before' after after' : List Token} {t t' : Token}
    (hbefore : ∀ x ∈ before, ¬ Comparison x) (hbefore' : ∀ x ∈ before', ¬ Comparison x)
    (ht : Comparison t) (ht' : Comparison t') (h : before ++ t :: after = before' ++ t' :: after') :
    before = before' ∧ t = t' ∧ after = after' := by
  induction before generalizing before' with
  | nil =>
    cases before' with
    | nil =>
      obtain ⟨rfl, rfl⟩ := List.cons.inj h
      exact ⟨rfl, rfl, rfl⟩
    | cons x before' =>
      obtain ⟨rfl, -⟩ := List.cons.inj h
      exact absurd ht (hbefore' _ List.mem_cons_self)
  | cons x before ih =>
    cases before' with
    | nil =>
      obtain ⟨rfl, -⟩ := List.cons.inj h
      exact absurd ht' (hbefore _ List.mem_cons_self)
    | cons x' before' =>
      rw [List.cons_append, List.cons_append, List.cons.injEq] at h
      obtain ⟨rfl, h⟩ := h
      obtain ⟨rfl, rfl, rfl⟩ := ih (fun y hy => hbefore y (List.mem_cons_of_mem _ hy))
        (fun y hy => hbefore' y (List.mem_cons_of_mem _ hy)) h
      exact ⟨rfl, rfl, rfl⟩

/-- Negating a text without comparisons puts a token in front. -/
theorem Negates.of_no_comparison {ts ts' : List Token} (h : Negates ts ts')
    (hts : ∀ t ∈ ts, ¬ Comparison t) : ts' = .not :: ts := by
  cases h with
  | front _ => rfl
  | eq _ => exact absurd (Or.inl rfl) (hts .eq (by simp))
  | neq _ => exact absurd (Or.inr rfl) (hts .neq (by simp))

/-- Negating a text whose first comparison is an equality turns it around. -/
theorem Negates.of_eq {before after ts' : List Token} (hbefore : ∀ t ∈ before, ¬ Comparison t)
    (h : Negates (before ++ .eq :: after) ts') : ts' = before ++ .neq :: after := by
  generalize hts : before ++ .eq :: after = ts at h
  cases h with
  | front hnone =>
    rw [← hts] at hnone
    exact absurd (Or.inl rfl) (hnone .eq (by simp))
  | eq hbefore' =>
    obtain ⟨rfl, -, rfl⟩ :=
      first_comparison_unique hbefore hbefore' (Or.inl rfl) (Or.inl rfl) hts
    rfl
  | neq hbefore' =>
    obtain ⟨-, hne, -⟩ := first_comparison_unique hbefore hbefore' (Or.inl rfl) (Or.inr rfl) hts
    cases hne

/-- Negating twice makes no filter of a text with a comparison. -/
theorem Negates.twice {ts ts' ts'' : List Token} (h : Negates ts ts') (h' : Negates ts' ts'')
    (hts : ∃ t ∈ ts, Comparison t) : parse known ts'' = none := by
  have hneq : ∃ before after, (∀ t ∈ before, ¬ Comparison t) ∧ ts' = before ++ .neq :: after := by
    cases h with
    | front hnone =>
      obtain ⟨t, ht, hcomparison⟩ := hts
      exact absurd hcomparison (hnone t ht)
    | eq hbefore => exact ⟨_, _, hbefore, rfl⟩
    | @neq before after hbefore =>
      refine ⟨before ++ [.not], after, ?_, by simp⟩
      intro t ht
      obtain ht | ht := List.mem_append.mp ht
      · exact hbefore t ht
      · rw [List.mem_singleton.mp ht]
        simp [Comparison]
  obtain ⟨before, after, hbefore, rfl⟩ := hneq
  generalize hts' : before ++ .neq :: after = mid at h'
  cases h' with
  | front hnone =>
    rw [← hts'] at hnone
    exact absurd (Or.inr rfl) (hnone .neq (by simp))
  | eq hbefore' =>
    obtain ⟨-, hne, -⟩ := first_comparison_unique hbefore hbefore' (Or.inr rfl) (Or.inl rfl) hts'
    cases hne
  | neq _ => exact parseFrom_not_neq [] _ _

/-- A text that is cut at another token is negated on one of the two sides. -/
theorem Negates.append {xs ys ts' : List Token} {sep : Token} (hsep : ¬ Comparison sep)
    (h : Negates (xs ++ sep :: ys) ts') :
    (∃ xs', Negates xs xs' ∧ ts' = xs' ++ sep :: ys) ∨
      ∃ ys', Negates ys ys' ∧ ts' = xs ++ sep :: ys' := by
  have hside {before after : List Token} {t : Token} (ht : Comparison t)
      (hts : xs ++ sep :: ys = before ++ t :: after) :
      (∃ rest, xs = before ++ t :: rest ∧ after = rest ++ sep :: ys) ∨
        ∃ rest, ys = rest ++ t :: after ∧ before = xs ++ sep :: rest := by
    obtain ⟨rest, hbefore, hrest⟩ | ⟨rest, hxs, hrest⟩ := List.append_eq_append_iff.mp hts
    · cases rest with
      | nil =>
        obtain ⟨rfl, -⟩ := List.cons.inj hrest
        exact absurd ht hsep
      | cons x rest =>
        obtain ⟨rfl, hys⟩ := List.cons.inj hrest
        exact Or.inr ⟨rest, hys, hbefore⟩
    · cases rest with
      | nil =>
        obtain ⟨rfl, -⟩ := List.cons.inj hrest
        exact absurd ht hsep
      | cons x rest =>
        obtain ⟨rfl, hafter⟩ := List.cons.inj hrest
        exact Or.inl ⟨rest, hxs, hafter⟩
  generalize hts : xs ++ sep :: ys = ts at h
  cases h with
  | front hnone =>
    rw [← hts] at hnone ⊢
    exact Or.inl ⟨.not :: xs, .front fun t ht => hnone t (List.mem_append_left _ ht), rfl⟩
  | eq hbefore =>
    obtain ⟨rest, rfl, rfl⟩ | ⟨rest, rfl, rfl⟩ := hside (Or.inl rfl) hts
    · exact Or.inl ⟨_, .eq hbefore, by simp⟩
    · refine Or.inr ⟨_, .eq ?_, by simp⟩
      intro t ht
      exact hbefore t (List.mem_append_right _ (List.mem_cons_of_mem _ ht))
  | neq hbefore =>
    obtain ⟨rest, rfl, rfl⟩ | ⟨rest, rfl, rfl⟩ := hside (Or.inr rfl) hts
    · exact Or.inl ⟨_, .neq hbefore, by simp⟩
    · refine Or.inr ⟨_, .neq ?_, by simp⟩
      intro t ht
      exact hbefore t (List.mem_append_right _ (List.mem_cons_of_mem _ ht))

end Negation

end FilterGrammar
