import QVPN.Structures.Tunnel

/-!
# TLS records and application data

The outer framing of the tunnel: a record header of type, version and 16-bit length in
front of application data, which starts with the packet-builder header. Views keep a 16-bit
size, so a view of a longer buffer sees its size modulo 65536.
-/

namespace QVPN

open BigEndian Memory

/-- The header every fragment starts with. -/
structure PacketBuilderData where
  packetId : UByte
  offset : UShort
  originalSize : UShort
  deriving DecidableEq, Repr

/-- The five wire bytes of the packet-builder header. -/
def PacketBuilderData.bytes (pb : PacketBuilderData) : List UByte :=
  pb.packetId :: (bytes16 pb.offset ++ bytes16 pb.originalSize)

@[simp] theorem PacketBuilderData.bytes_length (pb : PacketBuilderData) : pb.bytes.length = 5 := rfl

namespace TLS13ApplicationData

/-- A first fragment: builder header, proxy data and proto data in front of the payload. -/
def generateObjectBytesPbProxy (pb : PacketBuilderData) (proxy : QTunnelProxy)
    (data : List UByte) : Except Fault (List UByte) := do
  let proxySize ← proxy.getProxyDataSize
  let origSize := pb.originalSize + proxySize
  return PacketBuilderData.bytes ⟨pb.packetId, pb.offset, origSize⟩ ++ proxy.encode data

/-- A later fragment: builder header and data. -/
def generateObjectBytesPb (pb : PacketBuilderData) (data : List UByte) : List UByte :=
  pb.bytes ++ data

end TLS13ApplicationData

/-- What a record parser says about a buffer. -/
inductive BytesParseSignal where
  | BP_FULL_OBJECT
  | BP_NOT_FULL_OBJECT
  | BP_FULL_OBJECT_AND_TAIL
  | BP_NO_DATA
  | BP_ERROR
  deriving DecidableEq, Repr

/-- Positions relative to the start of the parsed buffer. -/
structure ProtoTemplateParseResult where
  start : ℕ
  stop : ℕ
  bpSignal : BytesParseSignal
  realEnd : ℕ
  deriving DecidableEq, Repr

namespace TLS13Record

/-- Type, legacy version and 16-bit size in front of a body. -/
def generateObjectBytes (body : List UByte) : List UByte :=
  [23, 0x03, 0x03] ++ bytes16 (UInt16.ofNat body.length) ++ body

/-- A record of any type and version, whose size is kept in sixteen bits. -/
def generateRecordBytes (msgType : UByte) (legacyVersion : UShort) (body : List UByte) :
    List UByte :=
  msgType :: (bytes16 legacyVersion ++ (bytes16 (UInt16.ofNat body.length) ++ body))

/-- The declared length plus the header, as a 16-bit number. -/
def getTlsRecordFullLength (data : List UByte) : Except Fault UShort := do
  let length ← read16 data 3
  return length + 1 + 2 + 2

/-- Classify `size` bytes of memory that starts at a record. Fewer bytes than a header has are
not read at all. -/
def bytesParse (mem : List UByte) (size : ℕ) : Except Fault ProtoTemplateParseResult :=
  if size < 5 then
    .ok ⟨0, size, .BP_NOT_FULL_OBJECT, size⟩
  else do
    let length ← getTlsRecordFullLength mem
    let signal :=
      if length.toNat = size then .BP_FULL_OBJECT
      else if length.toNat > size then .BP_NOT_FULL_OBJECT
      else .BP_FULL_OBJECT_AND_TAIL
    return ⟨0, length.toNat, signal, size⟩

/-- A record whose header length field equals its body size. -/
def WellFormed (record : List UByte) : Prop :=
  ∃ head body, record = head ++ bytes16 (UInt16.ofNat body.length) ++ body ∧ head.length = 3 ∧
    body.length ≤ 65530

end TLS13Record

/-- The class of views parses in the same way. -/
def TLS13RecordView.bytesParse (mem : List UByte) (size : ℕ) :
    Except Fault ProtoTemplateParseResult := TLS13Record.bytesParse mem size

/-- A view of a record keeps its position and a 16-bit size. -/
def TLS13RecordView.getTlsRecordData (size : ℕ) : ℤ × ℤ := (5, (UInt16.ofNat size).toNat)

/-- A view of application data over the range `[b, e)`, whose size wraps at 16 bits. -/
def TLS13ApplicationDataView.getAppData (b e : ℤ) : ℤ × ℤ :=
  (b, b + (UInt16.ofInt (e - b)).toNat)

namespace TLS13Record

@[simp] theorem generateObjectBytes_length (body : List UByte) :
    (generateObjectBytes body).length = 5 + body.length := by
  simp only [generateObjectBytes, List.length_append, bytes16_length]
  rfl

/-- The declared full length is found again behind any prefix of a well-formed record. -/
theorem getTlsRecordFullLength_append (head body rest : List UByte) (hhead : head.length = 3)
    (hbody : body.length ≤ 65530) :
    ∃ length, getTlsRecordFullLength (head ++ bytes16 (UInt16.ofNat body.length) ++ rest) =
      .ok length ∧ length.toNat = 5 + body.length := by
  refine ⟨UInt16.ofNat body.length + 1 + 2 + 2, ?_, ?_⟩
  · have h := read16_append head (UInt16.ofNat body.length) rest
    rw [hhead] at h
    rw [getTlsRecordFullLength, h]
    rfl
  · simp only [UInt16.toNat_add, UInt16.toNat_ofNat']
    simp
    omega

theorem WellFormed.length_ge {record : List UByte} (h : WellFormed record) : 5 ≤ record.length := by
  obtain ⟨head, body, rfl, hhead, -⟩ := h
  simp [hhead]
  omega

/-- The header at the front of a buffer is that of the record the buffer begins. -/
theorem getTlsRecordFullLength_of_wellFormed {record buffer more rest : List UByte}
    (h : WellFormed record) (hbuffer : buffer ++ more = record ++ rest) (hlen : 5 ≤ buffer.length) :
    ∃ length, getTlsRecordFullLength buffer = .ok length ∧ length.toNat = record.length := by
  obtain ⟨head, body, rfl, hhead, hbody⟩ := h
  have hfront : buffer.take 5 = head ++ bytes16 (UInt16.ofNat body.length) := by
    have hleft : (buffer ++ more).take 5 = buffer.take 5 := List.take_append_of_le_length hlen
    have hright : (head ++ bytes16 (UInt16.ofNat body.length) ++ body ++ rest).take 5 =
        head ++ bytes16 (UInt16.ofNat body.length) := by
      rw [List.append_assoc]
      exact List.take_left' (by simp [hhead])
    rw [← hleft, hbuffer, hright]
  obtain ⟨length, hread, hlength⟩ :=
    getTlsRecordFullLength_append head body (buffer.drop 5) hhead hbody
  rw [← hfront, List.take_append_drop] at hread
  refine ⟨length, hread, ?_⟩
  rw [hlength]
  simp only [List.length_append, bytes16_length, hhead]

/-- What a result of the parser says about the parsed size. -/
theorem bytesParse_cases {mem : List UByte} {size : ℕ} {res : ProtoTemplateParseResult}
    (h : bytesParse mem size = .ok res) :
    ∃ stop signal, res = ⟨0, stop, signal, size⟩ ∧
      (signal = .BP_FULL_OBJECT ∧ stop = size ∨ signal = .BP_NOT_FULL_OBJECT ∨
        signal = .BP_FULL_OBJECT_AND_TAIL ∧ stop < size) := by
  unfold bytesParse at h
  split at h
  · exact ⟨size, _, (Except.ok.inj h).symm, Or.inr (Or.inl rfl)⟩
  · obtain ⟨length, -, h⟩ := bind_eq_ok_iff.mp h
    refine ⟨length.toNat, _, (Except.ok.inj h).symm, ?_⟩
    by_cases heq : length.toNat = size
    · exact Or.inl ⟨if_pos heq, heq⟩
    · by_cases hgt : length.toNat > size
      · exact Or.inr (Or.inl (by rw [if_neg heq, if_pos hgt]))
      · exact Or.inr (Or.inr ⟨by rw [if_neg heq, if_neg hgt], by omega⟩)

/-- Part of a record is not a full object. -/
theorem bytesParse_partial {record buffer more rest : List UByte} (h : WellFormed record)
    (hbuffer : buffer ++ more = record ++ rest) (hlen : buffer.length < record.length) :
    ∃ stop, bytesParse buffer buffer.length =
      .ok ⟨0, stop, .BP_NOT_FULL_OBJECT, buffer.length⟩ := by
  by_cases hsmall : buffer.length < 5
  · exact ⟨_, by rw [bytesParse, if_pos hsmall]⟩
  · obtain ⟨length, hread, hlength⟩ :=
      getTlsRecordFullLength_of_wellFormed h hbuffer (by omega)
    refine ⟨length.toNat, ?_⟩
    rw [bytesParse, if_neg hsmall, hread, ok_bind]
    dsimp only
    rw [if_neg (by omega), if_pos (by omega)]
    rfl

/-- A buffer that holds a whole record is delimited at its end. -/
theorem bytesParse_complete {record buffer more rest : List UByte} (h : WellFormed record)
    (hbuffer : buffer ++ more = record ++ rest) (hlen : record.length ≤ buffer.length) :
    bytesParse buffer buffer.length = .ok ⟨0, record.length,
      if record.length = buffer.length then .BP_FULL_OBJECT else .BP_FULL_OBJECT_AND_TAIL,
      buffer.length⟩ := by
  have hge := h.length_ge
  obtain ⟨length, hread, hlength⟩ := getTlsRecordFullLength_of_wellFormed h hbuffer (by omega)
  rw [bytesParse, if_neg (by omega), hread, ok_bind]
  dsimp only
  by_cases heq : record.length = buffer.length
  · rw [if_pos (by omega), if_pos heq, hlength]
    rfl
  · rw [if_neg (by omega), if_neg (by omega), if_neg heq, hlength]
    rfl

end TLS13Record

end QVPN
