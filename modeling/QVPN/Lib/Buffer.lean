import Mathlib.Data.List.Basic

/-!
# Answers from a buffer

An object writes its content into a buffer of its own and answers with the buffer. If it clears the
buffer first, every call answers the content. If it only appends, the first call answers the content
behind what the buffer holds, and every later call repeats it once more.
-/

namespace Buffer

variable {σ τ α : Type*} {call : σ → List α × σ} {content buffer : σ → List α}

/-- The answers of a number of calls. -/
def answers (call : σ → List α × σ) : ℕ → σ → List (List α)
  | 0, _ => []
  | n + 1, s => (call s).1 :: answers call n (call s).2

/-- A call that is made through an embedding of the objects answers the same. -/
theorem answers_embed {call' : τ → List α × τ} {e : σ → τ}
    (h : ∀ s, call' (e s) = ((call s).1, e (call s).2)) (n : ℕ) (s : σ) :
    answers call' n (e s) = answers call n s := by
  induction n generalizing s with
  | zero => rfl
  | succ n ih => rw [answers, answers, h, ih]

/-- A call that answers the content and keeps it. -/
structure Clears (call : σ → List α × σ) (content : σ → List α) : Prop where
  answer : ∀ s, (call s).1 = content s
  content_kept : ∀ s, content (call s).2 = content s

/-- A call that appends the content to the buffer and answers with it. -/
structure Appends (call : σ → List α × σ) (content buffer : σ → List α) : Prop where
  answer : ∀ s, (call s).1 = buffer s ++ content s
  buffer_filled : ∀ s, buffer (call s).2 = buffer s ++ content s
  content_kept : ∀ s, content (call s).2 = content s

/-- A call that answers with the buffer it has filled. -/
theorem Appends.of_filled (hanswer : ∀ s, (call s).1 = buffer (call s).2)
    (hfilled : ∀ s, buffer (call s).2 = buffer s ++ content s)
    (hkept : ∀ s, content (call s).2 = content s) : Appends call content buffer where
  answer := by
    intro s
    rw [hanswer, hfilled]
  buffer_filled := hfilled
  content_kept := hkept

/-- A buffer that is cleared makes every call answer the content. -/
theorem Clears.answers (h : Clears call content) (n : ℕ) (s : σ) :
    ∀ answer ∈ answers call n s, answer = content s := by
  induction n generalizing s with
  | zero =>
    intro answer hanswer
    cases hanswer
  | succ n ih =>
    intro answer hanswer
    cases hanswer with
    | head => exact h.answer s
    | tail _ hanswer => exact (ih (call s).2 answer hanswer).trans (h.content_kept s)

/-- A buffer that is appended to stays empty only as long as there is no content. -/
theorem Appends.answers_of_empty (h : Appends call content buffer) (n : ℕ) {s : σ}
    (hbuffer : buffer s = []) (hcontent : content s = []) :
    ∀ answer ∈ answers call n s, answer = [] := by
  induction n generalizing s with
  | zero =>
    intro answer hanswer
    cases hanswer
  | succ n ih =>
    have hfilled : buffer s ++ content s = [] := by rw [hbuffer, hcontent, List.append_nil]
    intro answer hanswer
    cases hanswer with
    | head => rw [h.answer, hfilled]
    | tail _ hanswer =>
      apply ih _ _ answer hanswer
      · rw [h.buffer_filled, hfilled]
      · rw [h.content_kept, hcontent]

/-- An object that appends answers its content in every call exactly when it is called on an empty
buffer and either only once or without content. -/
theorem Appends.answers_iff (h : Appends call content buffer) (n : ℕ) (s : σ) :
    (∀ answer ∈ Buffer.answers call n s, answer = content s) ↔
      n = 0 ∨ buffer s = [] ∧ (n = 1 ∨ content s = []) := by
  cases n with
  | zero => simp only [Buffer.answers, List.not_mem_nil, false_implies, implies_true, true_or]
  | succ n =>
    have hfirst : (call s).1 = content s ↔ buffer s = [] := by
      rw [h.answer, List.append_left_eq_self]
    cases n with
    | zero =>
      simp only [Buffer.answers, List.mem_singleton, forall_eq, hfirst, Nat.zero_add, Nat.one_ne_zero,
        true_or, and_true, false_or]
    | succ n =>
      constructor
      · intro hall
        have hbuffer := hfirst.mp (hall _ List.mem_cons_self)
        have hsecond := hall _ (List.mem_cons_of_mem _ List.mem_cons_self)
        rw [h.answer, h.buffer_filled, h.content_kept, hbuffer, List.nil_append,
          List.append_right_eq_self] at hsecond
        exact Or.inr ⟨hbuffer, Or.inr hsecond⟩
      · intro hempty
        obtain ⟨hbuffer, hcontent⟩ := hempty.resolve_left (Nat.succ_ne_zero _)
        intro answer hanswer
        rw [hcontent.resolve_left (by omega)]
        exact h.answers_of_empty _ hbuffer (hcontent.resolve_left (by omega)) answer hanswer

end Buffer
