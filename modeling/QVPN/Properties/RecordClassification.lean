import QVPN.Structures.Record

/-!
# Records in a buffer

The parser compares the size of a buffer with the size of the record at its front. The latter is
computed in sixteen bits: from a declared length of 65531 on it starts again at zero, and the
buffer seems to have a tail behind a record that is shorter than its own header.
-/

namespace QVPN

open BigEndian Memory

namespace TLS13Record

/-- The length that the header at the front of a buffer declares. -/
def declaredLength (buffer : List UByte) : ℕ := (join (buffer.getD 3 0) (buffer.getD 4 0)).toNat

/-- What a parser should say about a buffer of a size, when the record at its front declares a
length. -/
structure Classifies (size length : ℕ) (res : ProtoTemplateParseResult) : Prop where
  start_eq : res.start = 0
  notFull_iff : res.bpSignal = .BP_NOT_FULL_OBJECT ↔ size < 5 ∨ size < 5 + length
  full_iff : res.bpSignal = .BP_FULL_OBJECT ↔ size = 5 + length
  tail_iff : res.bpSignal = .BP_FULL_OBJECT_AND_TAIL ↔ 5 + length < size
  stop_eq : 5 + length ≤ size → res.stop = 5 + length

/-- Both classes classify a buffer as they should, whatever memory follows it. -/
def ClassifiesBuffer (buffer behind : List UByte) : Prop :=
  (∃ res, bytesParse (buffer ++ behind) buffer.length = .ok res ∧
    Classifies buffer.length (declaredLength buffer) res) ∧
  ∃ res, TLS13RecordView.bytesParse (buffer ++ behind) buffer.length = .ok res ∧
    Classifies buffer.length (declaredLength buffer) res

/-- Both classes take a buffer for one full record. -/
def IsFull (record : List UByte) : Prop :=
  (∃ res, bytesParse record record.length = .ok res ∧ res.bpSignal = .BP_FULL_OBJECT) ∧
  ∃ res, TLS13RecordView.bytesParse record record.length = .ok res ∧
    res.bpSignal = .BP_FULL_OBJECT

/-- The signal for a size of the record and a size of the buffer. -/
def signalOf (full size : ℕ) : BytesParseSignal :=
  if full = size then .BP_FULL_OBJECT
  else if full > size then .BP_NOT_FULL_OBJECT
  else .BP_FULL_OBJECT_AND_TAIL

section Signal

variable (full size : ℕ)

theorem signalOf_full_iff : signalOf full size = .BP_FULL_OBJECT ↔ size = full := by
  unfold signalOf
  split
  · next heq => exact iff_of_true rfl heq.symm
  · next hne =>
    apply iff_of_false _ (Ne.symm hne)
    split <;> decide

theorem signalOf_notFull_iff : signalOf full size = .BP_NOT_FULL_OBJECT ↔ size < full := by
  unfold signalOf
  split
  · next heq => exact iff_of_false (by decide) (by omega)
  · split
    · next hgt => exact iff_of_true rfl hgt
    · next hgt => exact iff_of_false (by decide) hgt

theorem signalOf_tail_iff : signalOf full size = .BP_FULL_OBJECT_AND_TAIL ↔ full < size := by
  unfold signalOf
  split
  · next heq => exact iff_of_false (by decide) (by omega)
  · split
    · next hgt => exact iff_of_false (by decide) (by omega)
    · next hne hgt => exact iff_of_true rfl (by omega)

end Signal

/-- A buffer with a whole header is compared with the size of the record modulo sixteen bits. -/
theorem bytesParse_eq {buffer : List UByte} (h : 5 ≤ buffer.length) (behind : List UByte) :
    bytesParse (buffer ++ behind) buffer.length =
      .ok ⟨0, (declaredLength buffer + 5) % 65536,
        signalOf ((declaredLength buffer + 5) % 65536) buffer.length, buffer.length⟩ := by
  have hread : read16 (buffer ++ behind) 3 = .ok (join (buffer.getD 3 0) (buffer.getD 4 0)) :=
    read16_of_prefix (read16_getD (by omega)) behind
  have hfull : (join (buffer.getD 3 0) (buffer.getD 4 0) + 1 + 2 + 2).toNat =
      (declaredLength buffer + 5) % 65536 := by
    rw [declaredLength, UInt16.toNat_add, UInt16.toNat_add, UInt16.toNat_add]
    simp only [UInt16.reduceToNat]
    omega
  rw [bytesParse, if_neg (by omega), getTlsRecordFullLength, hread, ok_bind, pure_bind, hfull]
  rfl

/-- A buffer is classified as it should be exactly when it has no whole header, or the size of the
record fits in sixteen bits. -/
theorem exists_classifies_iff (buffer behind : List UByte) :
    (∃ res, bytesParse (buffer ++ behind) buffer.length = .ok res ∧
      Classifies buffer.length (declaredLength buffer) res) ↔
      buffer.length < 5 ∨ declaredLength buffer ≤ 65530 := by
  by_cases hshort : buffer.length < 5
  · refine iff_of_true ⟨_, if_pos hshort, rfl, ?_, ?_, ?_, ?_⟩ (.inl hshort)
    · exact iff_of_true rfl (.inl hshort)
    · exact iff_of_false (fun h => nomatch h) (by omega)
    · exact iff_of_false (fun h => nomatch h) (by omega)
    · intro hle
      omega
  · have hparse := bytesParse_eq (show 5 ≤ buffer.length by omega) behind
    have hlength : declaredLength buffer < 65536 := UInt16.toNat_lt _
    rw [or_iff_right hshort]
    constructor
    · rintro ⟨res, hres, hclass⟩
      cases hparse.symm.trans hres
      by_contra hlong
      -- the size of the record has wrapped, and is less than the one of a header
      have hnot := (signalOf_notFull_iff _ _).symm.trans hclass.notFull_iff
      have hstop := hclass.stop_eq
      dsimp only at hstop
      omega
    · intro hle
      have hfull : (declaredLength buffer + 5) % 65536 = 5 + declaredLength buffer := by omega
      rw [hfull] at hparse
      refine ⟨_, hparse, rfl, ?_, signalOf_full_iff _ _, signalOf_tail_iff _ _, fun _ => rfl⟩
      rw [or_iff_right hshort]
      exact signalOf_notFull_iff _ _

/-- A generated record is full exactly when its size fits in sixteen bits. -/
theorem exists_full_iff (msgType : UByte) (legacyVersion : UShort) (body : List UByte) :
    (∃ res, bytesParse (generateRecordBytes msgType legacyVersion body)
      (generateRecordBytes msgType legacyVersion body).length = .ok res ∧
      res.bpSignal = .BP_FULL_OBJECT) ↔ body.length ≤ 65530 := by
  have hlength : (generateRecordBytes msgType legacyVersion body).length = body.length + 5 := by
    rw [generateRecordBytes, List.length_cons, List.length_append, List.length_append,
      bytes16_length, bytes16_length]
    omega
  have hdeclared : declaredLength (generateRecordBytes msgType legacyVersion body) =
      body.length % 65536 := by
    change (join (hi _) (lo _)).toNat = _
    rw [join_hi_lo, UInt16.toNat_ofNat']
  have hparse := bytesParse_eq (show 5 ≤ (generateRecordBytes msgType legacyVersion body).length by
    omega) []
  rw [List.append_nil] at hparse
  have hfull := signalOf_full_iff ((body.length % 65536 + 5) % 65536) (body.length + 5)
  rw [hparse, hdeclared, hlength]
  constructor
  · rintro ⟨res, hres, hsignal⟩
    cases hres
    have hsize := hfull.mp hsignal
    omega
  · intro hle
    exact ⟨_, rfl, hfull.mpr (by omega)⟩

/-- Buffers are classified exactly, and generated records are full, up to a length of 65530. -/
theorem classification_iff (buffer behind : List UByte) (msgType : UByte)
    (legacyVersion : UShort) (body : List UByte) :
    (ClassifiesBuffer buffer behind ↔ buffer.length < 5 ∨ declaredLength buffer ≤ 65530) ∧
      (IsFull (generateRecordBytes msgType legacyVersion body) ↔ body.length ≤ 65530) := by
  constructor
  · exact and_self_iff.trans (exists_classifies_iff buffer behind)
  · exact and_self_iff.trans (exists_full_iff msgType legacyVersion body)

/-- A header alone that declares the largest length is taken for a record of four bytes with a
tail, and a record of 65531 bytes is not full. -/
theorem classification_wraps : ¬ClassifiesBuffer [23, 3, 3, 0xFF, 0xFF] [] ∧
    ¬IsFull (generateRecordBytes 23 0x0303 (List.replicate 65531 0)) := by
  constructor
  · intro h
    have hfits := (exists_classifies_iff [23, 3, 3, 0xFF, 0xFF] []).mp h.1
    exact absurd hfits (by decide)
  · intro h
    have hfits := (exists_full_iff 23 0x0303 (List.replicate 65531 0)).mp h.1
    rw [List.length_replicate] at hfits
    omega

end TLS13Record

end QVPN
