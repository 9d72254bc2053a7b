import QVPN.Structures.Http

/-!
# The end of an HTTP header

The search compares every character of a delimiter with the same byte and lets the last delimiter
decide. That one has two different characters, so nothing is ever accepted and the position stays
zero. It is right where the message begins with a delimiter or has none, provided that the message
has the two bytes that the unsigned bound of the loop is taken from.
-/

namespace QVPN

open Memory HttpTools

/-- A delimiter stands at a position. -/
def DelimiterAt (message : List UByte) (pos : ℕ) : Prop :=
  ∃ delim ∈ httpHeaderEnds, delim <+: message.drop pos

instance (message : List UByte) (pos : ℕ) : Decidable (DelimiterAt message pos) :=
  inferInstanceAs (Decidable (∃ delim ∈ httpHeaderEnds, _))

/-- The earliest position of a delimiter, zero if there is none. -/
def IsHeaderEnd (message : List UByte) (pos : ℕ) : Prop :=
  (DelimiterAt message pos ∧ ∀ i < pos, ¬ DelimiterAt message i) ∨
    pos = 0 ∧ ∀ i, ¬ DelimiterAt message i

/-- The search returns the end of the header, and the ranges that are derived from it split the
message there. -/
structure SplitsAtHeaderEnd (message : List UByte) (pos : ℕ) : Prop where
  is_end : IsHeaderEnd message pos
  found : ∃ found, findHttpHeaderEnd message = .ok found ∧ found.toInt = pos
  request : ∀ v : Http1PacketRequestView, v.message = message →
    v.getHttpRequestHeaderBytes = .ok (message.take pos) ∧
      v.getHttpRequestBodyBytes = .ok (message.drop pos)
  response : (Http1PacketResponseLittleEndian.mk message).getHttpResponseHeaderBytes =
      .ok (message.take pos) ∧
    (Http1PacketResponseLittleEndian.mk message).getHttpResponseBody = .ok (message.drop pos)

section Search

variable {mem : List UByte} {i : ℕ} {b : UByte}

/-- A delimiter is accepted if all its characters are the one byte. -/
theorem acceptDelimiter_eq (hread : readAt mem i = .ok b) (delim : List UByte) :
    acceptDelimiter mem i delim = .ok (delim.all fun c => c = b) := by
  induction delim with
  | nil => rfl
  | cons c delim ih =>
    rw [acceptDelimiter, hread, ok_bind, List.all_cons]
    split
    · next hne => rw [decide_eq_false hne, Bool.false_and]; rfl
    · next heq => rw [ih, decide_eq_true (not_not.mp heq), Bool.true_and]

/-- The last delimiter decides. -/
theorem acceptHeaderEnd_concat (hread : readAt mem i = .ok b) (delims : List (List UByte))
    (last : List UByte) (accept : Bool) :
    acceptHeaderEnd mem i (delims ++ [last]) accept = .ok (last.all fun c => c = b) := by
  induction delims generalizing accept with
  | nil => rw [List.nil_append, acceptHeaderEnd, acceptDelimiter_eq hread, ok_bind, acceptHeaderEnd]
  | cons delim delims ih =>
    rw [List.cons_append, acceptHeaderEnd, acceptDelimiter_eq hread, ok_bind, ih]

/-- No byte of a message is accepted. -/
theorem acceptHeaderEnd_false (hread : readAt mem i = .ok b) :
    acceptHeaderEnd mem i httpHeaderEnds false = .ok false := by
  have hlast := acceptHeaderEnd_concat hread [[13, 10, 13, 10], [10, 10], [13, 13]] [13, 10, 10] false
  refine hlast.trans (congrArg _ ?_)
  by_contra haccept
  rw [Bool.not_eq_false, List.all_eq_true] at haccept
  have hcr := of_decide_eq_true (haccept 13 (by decide))
  have hlf := of_decide_eq_true (haccept 10 (by decide))
  exact absurd (hcr.trans hlf.symm) (by decide)

/-- Behind the message the first comparison reads outside. -/
theorem acceptHeaderEnd_outside (hi : mem.length ≤ i) :
    acceptHeaderEnd mem i httpHeaderEnds false = .error .outOfBounds := by
  have hread : readAt mem i = .error .outOfBounds := by
    rw [readAt, List.getElem?_eq_none hi]
  rw [httpHeaderEnds, acceptHeaderEnd, acceptDelimiter, hread]
  rfl

/-- The loop keeps its position as long as it stays inside the message. -/
theorem headerEndLoop_eq (count : ℕ) (hi : i ≤ mem.length) (pos : Int32) :
    headerEndLoop mem count i pos =
      if i + count ≤ mem.length then .ok pos else .error .outOfBounds := by
  induction count generalizing i with
  | zero => rw [headerEndLoop, Nat.add_zero, if_pos hi]
  | succ count ih =>
    rw [headerEndLoop]
    by_cases hinside : i < mem.length
    · obtain ⟨b, hread⟩ := readAt_of_lt hinside
      rw [acceptHeaderEnd_false hread, ok_bind, if_neg Bool.false_ne_true, ih hinside,
        Nat.succ_add_eq_add_succ]
    · rw [acceptHeaderEnd_outside (Nat.le_of_not_lt hinside), if_neg (by omega)]
      rfl

/-- The search returns zero for every message of two bytes or more, and reads outside of a shorter
one. -/
theorem findHttpHeaderEnd_eq (message : List UByte) :
    findHttpHeaderEnd message = if 2 ≤ message.length then .ok 0 else .error .outOfBounds := by
  rw [findHttpHeaderEnd, headerDelimiterMinSize, headerEndLoop_eq _ (Nat.zero_le _)]
  apply ite_congr _ (fun _ => rfl) (fun _ => rfl)
  rw [eq_iff_iff]
  omega

end Search

/-- Without a delimiter, or with one at its begin, a message has its header end at zero. -/
theorem isHeaderEnd_zero_iff (message : List UByte) :
    IsHeaderEnd message 0 ↔ DelimiterAt message 0 ∨ ∀ i, ¬ DelimiterAt message i := by
  simp only [IsHeaderEnd, Nat.not_lt_zero, false_implies, implies_true, and_true, true_and]

/-- The ranges that are derived from zero. -/
theorem ranges_of_zero {message : List UByte} (h : findHttpHeaderEnd message = .ok 0) :
    headerBytes message = .ok (message.take 0) ∧ bodyBytes message = .ok (message.drop 0) := by
  have hzero : (0 : Int32).toInt = 0 := rfl
  constructor
  · rw [headerBytes, h, ok_bind, hzero]
    exact slice_prefix [] message 0 rfl
  · rw [bodyBytes, h, ok_bind, hzero]
    exact slice_all message _ rfl

/-- A message that is split at the end of its header has two bytes, and its header ends at zero. -/
theorem SplitsAtHeaderEnd.at_zero {message : List UByte} {pos : ℕ}
    (h : SplitsAtHeaderEnd message pos) : 2 ≤ message.length ∧ IsHeaderEnd message 0 := by
  obtain ⟨found, hfound, hpos⟩ := h.found
  rw [findHttpHeaderEnd_eq] at hfound
  split at hfound
  · next hsize =>
    cases Except.ok.inj hfound
    have hzero : (0 : Int32).toInt = 0 := rfl
    have hend := h.is_end
    rw [hzero, eq_comm, Int.natCast_eq_zero] at hpos
    rw [hpos] at hend
    exact ⟨hsize, hend⟩
  · cases hfound

/-- A message is split at the end of its header exactly when it has two bytes and either begins with
a delimiter or has none. -/
theorem splitsAtHeaderEnd_iff (message : List UByte) :
    (∃ pos, SplitsAtHeaderEnd message pos) ↔
      2 ≤ message.length ∧ (DelimiterAt message 0 ∨ ∀ i, ¬ DelimiterAt message i) := by
  rw [← isHeaderEnd_zero_iff]
  constructor
  · intro ⟨pos, h⟩
    exact h.at_zero
  · intro ⟨hsize, hend⟩
    have hfound : findHttpHeaderEnd message = .ok 0 := by rw [findHttpHeaderEnd_eq, if_pos hsize]
    obtain ⟨hheader, hbody⟩ := ranges_of_zero hfound
    refine ⟨0, hend, ⟨0, hfound, rfl⟩, fun v hv => ?_, hheader, ?_⟩
    · rw [Http1PacketRequestView.getHttpRequestHeaderBytes,
        Http1PacketRequestView.getHttpRequestBodyBytes, hv]
      exact ⟨hheader, hbody⟩
    · rw [Http1PacketResponseLittleEndian.getHttpResponseBody,
        Http1PacketResponseLittleEndian.getHttpResponseHeaderBytes, hheader, ok_bind]
      exact slice_all message _ (by simp)

/-- A request that begins with the end of its header is all body. -/
example : Http1PacketRequestView.getHttpRequestBodyBytes ⟨[13, 10, 13, 10, 66], by decide⟩ =
    .ok [13, 10, 13, 10, 66] := by decide

/-- An empty buffer and a single byte are read outside, and a header is not found at its end. -/
theorem headerEnd_lost : findHttpHeaderEnd [] = .error .outOfBounds ∧
    findHttpHeaderEnd [65] = .error .outOfBounds ∧
    findHttpHeaderEnd [65, 13, 10, 13, 10, 66] = .ok 0 ∧
    (∀ message ∈ [[], [65], [65, 13, 10, 13, 10, 66]], ∀ pos, ¬ SplitsAtHeaderEnd message pos) := by
  refine ⟨findHttpHeaderEnd_eq _, findHttpHeaderEnd_eq _, findHttpHeaderEnd_eq _, ?_⟩
  intro message hmessage pos h
  obtain ⟨hsize, hend⟩ := h.at_zero
  rw [isHeaderEnd_zero_iff] at hend
  simp only [List.mem_cons, List.not_mem_nil, or_false] at hmessage
  rcases hmessage with rfl | rfl | rfl
  · exact absurd hsize (by decide)
  · exact absurd hsize (by decide)
  · cases hend with
    | inl hbegin => exact absurd hbegin (by decide)
    | inr hnone => exact hnone 1 (by decide)

end QVPN
