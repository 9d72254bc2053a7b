import QVPN.Lib.Buffer
import QVPN.Structures.Refill

/-!
# Serialising and parsing again

Of the packets by value only the full packet with TCP clears its vector before it serialises
itself. The others answer their bytes once more with every call. The TCP and the UDP header append
new data to the old, so an object that is given data a second time is not the object of the last
data, unless what it was given before is empty.
-/

namespace QVPN

open Memory

section Bytes

theorem Ipv4TcpFatPacket.bytes_clears :
    Buffer.Clears bytes fun p => p.net.header ++ p.transport.header ++ p.payload :=
  ⟨fun _ => rfl, fun _ => rfl⟩

theorem Ipv4UdpFatPacket.bytes_appends :
    Buffer.Appends bytes (fun p => p.net.header ++ p.transport.header ++ p.payload) data := by
  apply Buffer.Appends.of_filled (fun _ => rfl) _ fun _ => rfl
  intro p
  simp only [bytes, List.append_assoc]

theorem NoNetPacketTcpFatObject.bytes_appends :
    Buffer.Appends bytes (fun p => p.transport.header ++ p.payload) data :=
  .of_filled (fun _ => rfl) (fun _ => List.append_assoc _ _ _) fun _ => rfl

theorem NoNetPacketUdpFatObject.bytes_appends :
    Buffer.Appends bytes (fun p => p.transport.header ++ p.payload) data :=
  .of_filled (fun _ => rfl) (fun _ => List.append_assoc _ _ _) fun _ => rfl

/-- Every call answers the content exactly if the class clears its vector, or the vector starts
empty and there is one call or no content. -/
theorem FatPacketObject.answers_iff (p : FatPacketObject) (n : ℕ) :
    (∀ answer ∈ Buffer.answers bytes n p, answer = p.content) ↔
      (∃ q, p = fullTcp q) ∨ n = 0 ∨ p.data = [] ∧ (n = 1 ∨ p.content = []) := by
  cases p with
  | fullTcp p =>
    rw [Buffer.answers_embed (e := fullTcp) (fun _ => rfl)]
    exact iff_of_true (Ipv4TcpFatPacket.bytes_clears.answers n p) (Or.inl ⟨p, rfl⟩)
  | fullUdp p =>
    rw [Buffer.answers_embed (e := fullUdp) (fun _ => rfl), or_iff_right nofun]
    exact Ipv4UdpFatPacket.bytes_appends.answers_iff n p
  | noNetTcp p =>
    rw [Buffer.answers_embed (e := noNetTcp) (fun _ => rfl), or_iff_right nofun]
    exact NoNetPacketTcpFatObject.bytes_appends.answers_iff n p
  | noNetUdp p =>
    rw [Buffer.answers_embed (e := noNetUdp) (fun _ => rfl), or_iff_right nofun]
    exact NoNetPacketUdpFatObject.bytes_appends.answers_iff n p

end Bytes

/-- Memory that a TCP header can be parsed from. -/
structure TcpHeaderMemory where
  mem : List UByte
  legal : ∃ p, TcpPacketLittleEndian.parsePacket mem = .ok p

/-- A range that a UDP header can be copied from. -/
structure UdpHeaderRange where
  mem : List UByte
  size : ℤ
  legal : ∃ p, UdpPacketLittleEndian.parsePacket mem size = .ok p

section SetData

/-- New data is appended, and its length follows from the data offset at the front of the vector. -/
theorem TcpPacketLittleEndian.setData_appends {p p' : TcpPacketLittleEndian} {mem : List UByte}
    (h : p.setData mem = .ok p') :
    ∃ added b, p'.header = p.header ++ added ∧ readAt p'.header 12 = .ok b ∧
      (added.length : ℤ) = (b >>> 4).toNat * 4 ∧ 20 ≤ added.length := by
  obtain ⟨fixed, hfixed, h⟩ := bind_eq_ok_iff.mp h
  obtain ⟨b, hb, h⟩ := bind_eq_ok_iff.mp h
  obtain ⟨options, hoptions, h⟩ := bind_eq_ok_iff.mp h
  cases Except.ok.inj h
  have hfixedLength := slice_length hfixed
  have hoptionsLength := slice_length hoptions
  refine ⟨fixed ++ options, b, List.append_assoc _ _ _, Memory.readAt_of_prefix hb options, ?_, ?_⟩
  · rw [List.length_append]
    omega
  · rw [List.length_append]
    omega

/-- An object that has been given data is not empty. -/
theorem TcpPacketLittleEndian.refill_length {mems : List (List UByte)} {p : TcpPacketLittleEndian}
    (h : refill mems = .ok p) (hne : mems ≠ []) : 20 ≤ p.header.length := by
  obtain ⟨before, last, rfl⟩ := List.eq_nil_or_concat' mems |>.resolve_left hne
  rw [refill, List.foldlM_append] at h
  obtain ⟨q, -, h⟩ := bind_eq_ok_iff.mp h
  rw [List.foldlM_cons] at h
  obtain ⟨q', hset, h⟩ := bind_eq_ok_iff.mp h
  cases Except.ok.inj h
  obtain ⟨added, -, hheader, -, -, hadded⟩ := setData_appends hset
  rw [hheader, List.length_append]
  omega

/-- The object of the last data is what the last data was appended to nothing. -/
theorem TcpPacketLittleEndian.refill_iff (args : List TcpHeaderMemory) (last : TcpHeaderMemory) :
    refill ((args ++ [last]).map TcpHeaderMemory.mem) = parsePacket last.mem ↔ args = [] := by
  constructor
  · intro h
    by_contra hne
    obtain ⟨fresh, hfresh⟩ := last.legal
    rw [hfresh, List.map_append, refill, List.foldlM_append] at h
    obtain ⟨p, hp, h⟩ := bind_eq_ok_iff.mp h
    rw [List.map_singleton, List.foldlM_cons] at h
    obtain ⟨p', hset, h⟩ := bind_eq_ok_iff.mp h
    cases Except.ok.inj h
    have hlength := refill_length hp (mt List.map_eq_nil_iff.mp hne)
    -- both vectors begin with the same data offset, and the fresh one has no more than it declares
    obtain ⟨added, b, hheader, hb, hadded, -⟩ := setData_appends hset
    obtain ⟨added', b', hheader', hb', hadded', -⟩ := setData_appends (p := ⟨[]⟩) hfresh
    cases Except.ok.inj (hb.symm.trans hb')
    have htotal := congrArg List.length hheader
    rw [hheader', List.nil_append, List.length_append] at htotal
    omega
  · intro hnil
    rw [hnil, List.nil_append, List.map_singleton, refill, List.foldlM_cons]
    obtain ⟨fresh, hfresh⟩ := last.legal
    change (parsePacket last.mem >>= fun p => pure p) = _
    rw [hfresh]
    rfl

/-- The bytes of a range. -/
def UdpHeaderRange.bytes (r : UdpHeaderRange) : List UByte := r.mem.take r.size.toNat

/-- The range that is copied. -/
theorem UdpHeaderRange.slice_eq (r : UdpHeaderRange) : slice r.mem 0 r.size = .ok r.bytes := by
  obtain ⟨p, hp⟩ := r.legal
  obtain ⟨header, hheader, -⟩ := bind_eq_ok_iff.mp hp
  obtain ⟨-, -, -, htake⟩ := slice_eq_ok_iff.mp hheader
  rw [Int.toNat_zero, List.drop_zero, Int.sub_zero] at htake
  rw [hheader, htake, UdpHeaderRange.bytes]

/-- A range without bytes. -/
theorem UdpHeaderRange.bytes_eq_nil_iff (r : UdpHeaderRange) : r.bytes = [] ↔ r.size = 0 := by
  have hlength := slice_length r.slice_eq
  rw [← List.length_eq_zero_iff]
  omega

/-- All data that was given lies one behind the other. -/
theorem UdpPacketLittleEndian.refill_append (p : UdpPacketLittleEndian)
    (ranges : List UdpHeaderRange) :
    (ranges.map fun r => (r.mem, r.size)).foldlM (fun p range => p.setData range.1 range.2) p =
      .ok ⟨p.header ++ (ranges.map UdpHeaderRange.bytes).flatten⟩ := by
  induction ranges generalizing p with
  | nil =>
    rw [List.map_nil, List.foldlM_nil, List.map_nil, List.flatten_nil, List.append_nil]
    rfl
  | cons r ranges ih =>
    rw [List.map_cons, List.foldlM_cons, setData, r.slice_eq, ok_bind, pure_bind, ih, List.map_cons,
      List.flatten_cons, List.append_assoc]

/-- The object of the last data is what nothing came before. -/
theorem UdpPacketLittleEndian.refill_iff (ranges : List UdpHeaderRange) (last : UdpHeaderRange) :
    refill ((ranges ++ [last]).map fun r => (r.mem, r.size)) = parsePacket last.mem last.size ↔
      ∀ r ∈ ranges, r.size = 0 := by
  have hfresh : parsePacket last.mem last.size = .ok ⟨last.bytes⟩ := by
    rw [parsePacket, last.slice_eq, ok_bind]
    rfl
  rw [refill, refill_append, hfresh, List.map_append, List.flatten_append, List.map_singleton,
    List.flatten_singleton, List.nil_append, Except.ok.injEq, mk.injEq, List.append_left_eq_self,
    List.flatten_eq_nil_iff, List.forall_mem_map]
  exact forall₂_congr fun r _ => r.bytes_eq_nil_iff

end SetData

/-- Every call of `bytes` answers the content, and an object that is given data is the object of
the last data, exactly in the cases where there is nothing to clear. -/
theorem usedAgain_iff (p : FatPacketObject) (n : ℕ) (headers : List TcpHeaderMemory)
    (header : TcpHeaderMemory) (ranges : List UdpHeaderRange) (range : UdpHeaderRange) :
    ((∀ answer ∈ Buffer.answers FatPacketObject.bytes n p, answer = p.content) ↔
      (∃ q, p = .fullTcp q) ∨ n = 0 ∨ p.data = [] ∧ (n = 1 ∨ p.content = [])) ∧
    (TcpPacketLittleEndian.refill ((headers ++ [header]).map TcpHeaderMemory.mem) =
        TcpPacketLittleEndian.parsePacket header.mem ↔ headers = []) ∧
    (UdpPacketLittleEndian.refill ((ranges ++ [range]).map fun r => (r.mem, r.size)) =
        UdpPacketLittleEndian.parsePacket range.mem range.size ↔ ∀ r ∈ ranges, r.size = 0) :=
  ⟨p.answers_iff n, TcpPacketLittleEndian.refill_iff headers header,
    UdpPacketLittleEndian.refill_iff ranges range⟩

/-- The twenty bytes of a header without options. -/
def plainTcpHeader : TcpHeaderMemory := ⟨List.replicate 12 0 ++ 80 :: List.replicate 7 0, ⟨_, rfl⟩⟩

/-- Nothing of a port, and its first byte. -/
def emptyRange : UdpHeaderRange := ⟨[0, 53], 0, ⟨_, rfl⟩⟩

def byteRange : UdpHeaderRange := ⟨[0, 53], 1, ⟨_, rfl⟩⟩

/-- A datagram is serialised once. A header is given data a first time, and another is given nothing
before it is given a byte. -/
theorem usedAgain_iff_once :
    (∀ answer ∈ Buffer.answers FatPacketObject.bytes 1
      (.noNetUdp ⟨⟨[0, 53, 0, 53, 0, 8, 0, 0]⟩, [], []⟩), answer = [0, 53, 0, 53, 0, 8, 0, 0]) ∧
    TcpPacketLittleEndian.refill [plainTcpHeader.mem] =
      TcpPacketLittleEndian.parsePacket plainTcpHeader.mem ∧
    UdpPacketLittleEndian.refill [([0, 53], 0), ([0, 53], 1)] =
      UdpPacketLittleEndian.parsePacket [0, 53] 1 := by
  obtain ⟨hbytes, htcp, hudp⟩ := usedAgain_iff (.noNetUdp ⟨⟨[0, 53, 0, 53, 0, 8, 0, 0]⟩, [], []⟩) 1 []
    plainTcpHeader [emptyRange] byteRange
  refine ⟨hbytes.mpr (.inr (.inr ⟨rfl, .inl rfl⟩)), htcp.mpr rfl, hudp.mpr ?_⟩
  intro range hrange
  rw [List.mem_singleton.mp hrange, emptyRange]

/-- The second call of a datagram answers its bytes twice, and a header that is given the same data
twice has the bytes of both. -/
theorem usedAgain_repeats :
    Buffer.answers FatPacketObject.bytes 2 (.noNetUdp ⟨⟨[0, 53, 0, 53, 0, 8, 0, 0]⟩, [], []⟩) =
        [[0, 53, 0, 53, 0, 8, 0, 0], [0, 53, 0, 53, 0, 8, 0, 0, 0, 53, 0, 53, 0, 8, 0, 0]] ∧
      TcpPacketLittleEndian.refill (List.replicate 2 (List.replicate 12 0 ++ 80 ::
        List.replicate 7 0)) ≠
        TcpPacketLittleEndian.parsePacket (List.replicate 12 0 ++ 80 :: List.replicate 7 0) ∧
      UdpPacketLittleEndian.refill [([0], 1), ([0], 1)] ≠
        UdpPacketLittleEndian.parsePacket [0] 1 := by
  decide

end QVPN
