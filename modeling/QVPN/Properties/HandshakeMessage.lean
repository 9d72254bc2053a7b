import QVPN.Structures.Message

/-!
# Handshake messages, read back

The view of a message finds its type, its length and its body wherever the message lies. The
copying class reads the length before there is anything to read it from, so that no message can be
copied at all.
-/

namespace QVPN

open BigEndian Memory

/-- What a message is read back as. -/
structure TLS13MessageFields where
  msgType : UByte
  length : UInt
  data : List UByte
  deriving DecidableEq, Repr

def TLS13MessageLittleEndian.fields (p : TLS13MessageLittleEndian) :
    Except Fault TLS13MessageFields := do
  let msgType ← p.getTlsMsgType
  let length ← p.getTlsMsgLength
  let data ← p.getTlsMsgData
  return ⟨msgType, length, data⟩

def TLS13MessageView.fields (p : TLS13MessageView) : Except Fault TLS13MessageFields := do
  let msgType ← p.getMsgType
  let length ← p.getMsgLength
  let data ← p.getTlsMsgData
  return ⟨msgType, length, data⟩

/-- Fields that are the generated type, the size of the body, and the body. -/
def TLS13MessageFields.AreOf (fields : TLS13MessageFields) (msgType : UByte) (body : List UByte) :
    Prop := fields.msgType = msgType ∧ fields.length.toNat = body.length ∧ fields.data = body

/-- The copying class reads a generated message back. -/
def TLS13MessageLittleEndian.ReadsBack (msgType : UByte) (body : List UByte) : Prop :=
  ∃ p fields, TLS13MessageLittleEndian.ofRange (TLS13Message.generateObjectBytes msgType body) 0 =
    .ok p ∧ p.fields = .ok fields ∧ fields.AreOf msgType body

/-- The view reads a generated message back wherever it lies in memory. -/
def TLS13MessageView.ReadsBack (msgType : UByte) (body : List UByte) : Prop :=
  ∀ before after, ∃ p fields, TLS13MessageView.ofRange
      (before ++ TLS13Message.generateObjectBytes msgType body ++ after) before.length = .ok p ∧
    p.fields = .ok fields ∧ fields.AreOf msgType body

/-- Three bytes hold a number of at most twenty-four bits. -/
theorem join32_bytes24 {n : ℕ} (h : n < 2 ^ 24) :
    ∃ b1 b2 b3, bytes24 (UInt32.ofNat n) = [b1, b2, b3] ∧ (join32 0 b1 b2 b3).toNat = n := by
  have hword : (UInt32.ofNat n).toNat = n := by
    rw [UInt32.toNat_ofNat']
    omega
  refine ⟨_, _, _, rfl, ?_⟩
  have hbyte (w : UInt) : (w &&& 0xFF).toUInt8.toNat = w.toNat % 256 := by
    rw [UInt32.toNat_toUInt8, UInt32.toNat_and, show (0xFF : UInt).toNat = 2 ^ 8 - 1 from rfl,
      Nat.and_two_pow_sub_one_eq_mod]
    omega
  rw [join32_toNat, hbyte, hbyte, hbyte, UInt32.toNat_shiftRight, UInt32.toNat_shiftRight, hword]
  simp [Nat.shiftRight_eq_div_pow]
  omega

/-- The view agrees with the encoder for every body whose size fits three bytes. -/
theorem TLS13MessageView.readsBack (msgType : UByte) {body : List UByte}
    (h : body.length < 2 ^ 24) : TLS13MessageView.ReadsBack msgType body := by
  intro before after
  obtain ⟨b1, b2, b3, hbytes, hlength⟩ := join32_bytes24 h
  have hlayout : before ++ TLS13Message.generateObjectBytes msgType body ++ after =
      before ++ [msgType, b1, b2, b3] ++ body ++ after := by
    simp [TLS13Message.generateObjectBytes, hbytes]
  have hread (i : ℕ) (b : UByte) (hb : readAt [msgType, b1, b2, b3] i = .ok b) :
      readAt (before ++ [msgType, b1, b2, b3] ++ body ++ after) (before.length + i) = .ok b := by
    rw [List.append_assoc, List.append_assoc, readAt_append_right]
    exact readAt_of_prefix hb _
  have hmsgLength : getTlsMsgLength (before ++ [msgType, b1, b2, b3] ++ body ++ after)
      before.length = .ok (join32 0 b1 b2 b3) := by
    rw [getTlsMsgLength, hread 1 b1 rfl, ok_bind, hread 2 b2 rfl, ok_bind, hread 3 b3 rfl]
    rfl
  have hfull : (join32 0 b1 b2 b3 + 4).toNat = body.length + 4 := by
    rw [UInt32.toNat_add, hlength]
    simp
    omega
  have hdata : slice (before ++ [msgType, b1, b2, b3] ++ body ++ after) (before.length + 4)
      (before.length + (join32 0 b1 b2 b3 + 4).toNat) = .ok body :=
    slice_append _ _ _ _ _ (by simp) (by simp [hfull]; omega)
  rw [hlayout]
  let view : TLS13MessageView := ⟨before ++ [msgType, b1, b2, b3] ++ body ++ after, before.length,
    join32 0 b1 b2 b3 + 4⟩
  have htype : view.getMsgType = .ok msgType := hread 0 msgType rfl
  have hlength' : view.getMsgLength = .ok (join32 0 b1 b2 b3) := hmsgLength
  have hdata' : view.getTlsMsgData = .ok body := hdata
  refine ⟨view, ⟨msgType, join32 0 b1 b2 b3, body⟩, ?_, ?_, rfl, hlength, rfl⟩
  · rw [ofRange, getTlsMsgFullLength, hmsgLength]
    rfl
  · rw [fields, htype, ok_bind, hlength', ok_bind, hdata']
    rfl

/-- The length of the copy is read outside the vector that the copy is made into. -/
theorem TLS13MessageLittleEndian.ofRange_eq (mem : List UByte) (b : ℕ) :
    ofRange mem b = .error .outOfBounds := rfl

/-- In both classes a generated message is read back as it was generated. -/
def MessageFormsAgree (msgType : UByte) (body : List UByte) : Prop :=
  TLS13MessageLittleEndian.ReadsBack msgType body ∧ TLS13MessageView.ReadsBack msgType body

/-- The classes agree with the encoder on no message, because the copying class reads none. -/
theorem not_messageFormsAgree (msgType : UByte) (body : List UByte) :
    ¬MessageFormsAgree msgType body := by
  intro ⟨⟨p, _, hcopied, _⟩, _⟩
  rw [TLS13MessageLittleEndian.ofRange_eq] at hcopied
  cases hcopied

/-- An empty body is already out of reach of the copying class, and not of the view. -/
theorem emptyHello_forms_disagree :
    TLS13MessageLittleEndian.ofRange (TLS13Message.generateObjectBytes 1 []) 0 =
      .error .outOfBounds ∧
    (do
      let p ← TLS13MessageView.ofRange (TLS13Message.generateObjectBytes 1 []) 0
      p.fields) = .ok ⟨1, 0, []⟩ ∧ ¬MessageFormsAgree 1 [] := by
  refine ⟨rfl, by decide, ?_⟩
  intro ⟨⟨p, _, hcopied, _⟩, _⟩
  cases hcopied

end QVPN
