import QVPN.Properties.TransportChecksum

/-!
# Packet boundaries

Where the three forms of a packet find the transport header and the payload of the same
bytes. The forms compute header sizes on their own: a copied IPv4 header counts its options
in words, a viewed one takes the number of words for a number of bytes, and a copied UDP
header takes everything behind it along. Each form is right exactly where its way of counting
makes no difference.
-/

namespace QVPN

open BigEndian Memory

/-- The length an IPv4 header declares, in 32-bit words. -/
def declaredWords (net : List UByte) : ℕ := (net.getD 0 0 &&& 0xF).toNat

/-- An IPv4 header whose options fill the length it declares. -/
structure IsIpv4Layout (net : List UByte) : Prop where
  words_ge : 5 ≤ declaredWords net
  length_eq : net.length = 4 * declaredWords net

/-- A complete IPv4 packet that carries TCP or UDP, cut where its headers end. -/
structure IsIpv4Packet (proto : TransportProtocol) (net transport payload : List UByte) : Prop where
  version : net.getD 0 0 >>> 4 = NetProtocol.IPv4.val
  layout : IsIpv4Layout net
  total_length : (join (net.getD 2 0) (net.getD 3 0)).toNat =
    net.length + transport.length + payload.length
  protocol : net.getD 9 0 = proto.val
  transport_header : (proto = .TCP ∧ IsTcpLayout transport) ∨
    (proto = .UDP ∧ transport.length = 8 ∧
      (join (transport.getD 4 0) (transport.getD 5 0)).toNat = 8 + payload.length)

/-- The forms of a packet: headers by value, views into an own vector, views in place. -/
inductive PacketForm where
  | fat
  | object
  | view
  deriving DecidableEq, Repr

/-- Where a form finds the transport header and the payload, and what it returns. -/
structure Boundaries where
  transportAt : ℤ
  payloadAt : ℤ
  payload : List UByte
  bytes : List UByte
  deriving DecidableEq, Repr

/-- The boundaries of views over memory. -/
def FullPacketView.boundaries (mem : List UByte) (packet : FullPacketView) :
    Except Fault Boundaries := do
  let data ← packet.getPayload mem
  let bytes ← packet.bytes mem
  match packet with
  | .tcp ip _ payload => return ⟨ip.getSize.toNat, payload.1, data, bytes⟩
  | .udp ip _ payload => return ⟨ip.getSize.toNat, payload.1, data, bytes⟩
  | .dummy => return ⟨0, 0, data, bytes⟩

/-- The boundaries of a form made from memory that starts at a packet of a given size. -/
def PacketForm.boundaries (form : PacketForm) (proto : TransportProtocol) (mem : List UByte)
    (size : ℕ) : Except Fault Boundaries :=
  match form with
  | .fat =>
    if proto = .TCP then do
      let p ← Ipv4TcpFatPacket.ofBytes mem size
      return ⟨p.net.getSize.toNat, p.net.getSize.toNat + p.transport.getSize.toNat, p.payload,
        p.bytes.1⟩
    else do
      let p ← Ipv4UdpFatPacket.ofBytes mem size
      return ⟨p.net.getSize.toNat, p.net.getSize.toNat + p.transport.getSize.toNat, p.payload,
        p.bytes.1⟩
  | .object => do
    let data ← slice mem 0 size
    let view ← (if proto = .TCP then FullPacketObject.tcp data else .udp data).view
    view.boundaries data
  | .view => do
    let view ← (if proto = .TCP then FullPacketView.ipv4Tcp mem size
      else FullPacketView.ipv4Udp mem size)
    view.boundaries mem

/-- A form cuts a packet where its headers end and returns it whole. -/
def PacketForm.CutsExactly (form : PacketForm) (proto : TransportProtocol)
    (net transport payload behind : List UByte) : Prop :=
  form.boundaries proto (net ++ transport ++ payload ++ behind)
      (net ++ transport ++ payload).length =
    .ok ⟨4 * declaredWords net, 4 * declaredWords net + transport.length, payload,
      net ++ transport ++ payload⟩

/-- Where the way a form counts makes no difference. -/
def PacketForm.CountsRight (form : PacketForm) (proto : TransportProtocol)
    (net payload : List UByte) : Prop :=
  match form with
  | .fat => proto = .TCP ∨ payload = []
  | .object => declaredWords net = 5
  | .view => declaredWords net = 5

theorem FullPacketView.boundaries_tcp (mem : List UByte) (ip : Ipv4PacketView)
    (transport : TcpPacketView) (payload : ℤ × ℤ) :
    (tcp ip transport payload).boundaries mem = (do
      let data ← slice mem payload.1 payload.2
      let bytes ← slice mem 0 payload.2
      return ⟨ip.getSize.toNat, payload.1, data, bytes⟩) := rfl

theorem FullPacketView.boundaries_udp (mem : List UByte) (ip : Ipv4PacketView)
    (transport : UdpPacketView) (payload : ℤ × ℤ) :
    (udp ip transport payload).boundaries mem = (do
      let data ← slice mem payload.1 payload.2
      let bytes ← slice mem 0 payload.2
      return ⟨ip.getSize.toNat, payload.1, data, bytes⟩) := rfl

/-- Views into a copy of the packet are views with nothing behind it. -/
theorem PacketForm.object_iff_view {proto : TransportProtocol} {net transport payload : List UByte}
    (behind : List UByte) :
    object.CutsExactly proto net transport payload behind ↔
      view.CutsExactly proto net transport payload [] := by
  have hwhole : slice (net ++ transport ++ payload ++ behind) 0
      (net ++ transport ++ payload).length = .ok (net ++ transport ++ payload) :=
    slice_prefix _ _ _ rfl
  rw [CutsExactly, CutsExactly, boundaries, boundaries, hwhole, ok_bind, List.append_nil]
  split <;> rfl

/-- A view takes the transport header to lie behind what the IPv4 view counts. -/
theorem FullPacketView.transportAt_eq {mem mem' : List UByte} {size : ℕ} {ip : Ipv4PacketView}
    {packet : FullPacketView} {b : Boundaries} (hip : Ipv4PacketView.parsePacket mem = .ok ip)
    (hview : ipv4Tcp mem size = .ok packet ∨ ipv4Udp mem size = .ok packet)
    (hb : packet.boundaries mem' = .ok b) : b.transportAt = ip.getSize.toNat := by
  rcases hview with hview | hview
  · rw [ipv4Tcp, hip, ok_bind] at hview
    obtain ⟨transport, -, hview⟩ := bind_eq_ok_iff.mp hview
    cases Except.ok.inj hview
    obtain ⟨data, -, hb⟩ := bind_eq_ok_iff.mp hb
    obtain ⟨bytes, -, hb⟩ := bind_eq_ok_iff.mp hb
    cases Except.ok.inj hb
    rfl
  · rw [ipv4Udp, hip, ok_bind] at hview
    cases Except.ok.inj hview
    obtain ⟨data, -, hb⟩ := bind_eq_ok_iff.mp hb
    obtain ⟨bytes, -, hb⟩ := bind_eq_ok_iff.mp hb
    cases Except.ok.inj hb
    rfl

namespace IsIpv4Layout

variable {net : List UByte} (h : IsIpv4Layout net)
include h

/-- A view of the header counts fifteen bytes and one for each word. -/
theorem parsePacket_view (behind : List UByte) : ∃ ip,
    Ipv4PacketView.parsePacket (net ++ behind) = .ok ip ∧ ip.getSize.toNat = 15 + declaredWords net := by
  have hge := h.words_ge
  have hlength := h.length_eq
  refine ⟨⟨net ++ behind, (declaredWords net : ℤ) - 5⟩, ?_, ?_⟩
  · rw [Ipv4PacketView.parsePacket, readAt_append_getD (by omega) 0, ok_bind]
    rfl
  · have hsmall : declaredWords net ≤ 15 := by
      rw [declaredWords]
      generalize net.getD 0 0 = b
      revert b
      exact forall_byte (by decide +kernel)
    change (UInt16.ofInt (20 + ((declaredWords net : ℤ) - 5))).toNat = _
    rw [toNat_ofInt]
    omega

/-- A copy of the header is the header. -/
theorem parsePacket_object (behind : List UByte) :
    Ipv4PacketLittleEndian.parsePacket (net ++ behind) = .ok ⟨net⟩ := by
  have hge := h.words_ge
  have hlength := h.length_eq
  have hfixed : 20 ≤ net.length := by omega
  have hread : readAt (net.take 20) 0 = .ok (net.getD 0 0) := by
    have hread := readAt_getD (show 0 < (net.take 20).length by rw [List.length_take]; omega) 0
    rwa [getD_take (by decide)] at hread
  have hfirst : slice (net ++ behind) 0 20 = .ok (net.take 20) := slice_take hfixed behind rfl
  have hoptions : slice (net ++ behind) 20
      (20 + ((net.getD 0 0 &&& 0xF).toNat - 5 : ℤ) * 4) = .ok (net.drop 20) :=
    slice_drop hfixed behind rfl (by rw [declaredWords] at hlength; omega)
  rw [Ipv4PacketLittleEndian.parsePacket, hfirst, ok_bind, hread, ok_bind, hoptions, ok_bind,
    List.take_append_drop]
  rfl

/-- Without options the IPv4 view ends where the header does. -/
theorem parsePacket_plain (hwords : declaredWords net = 5) (behind : List UByte) :
    Ipv4PacketView.parsePacket (net ++ behind) = .ok ⟨net ++ behind, 0⟩ := by
  have hlength := h.length_eq
  rw [Ipv4PacketView.parsePacket, readAt_append_getD (by omega) 0, ok_bind]
  rw [declaredWords] at hwords
  rw [hwords]
  rfl

end IsIpv4Layout

section Plain

variable {net transport : List UByte} (hnet : IsIpv4Layout net) (hwords : declaredWords net = 5)
include hnet hwords

/-- Without options the views of a packet carrying TCP are those of its parts. -/
theorem FullPacketView.ipv4Tcp_plain (htransport : IsTcpLayout transport) (rest : List UByte)
    (size : ℕ) : ipv4Tcp (net ++ transport ++ rest) size =
      .ok (.tcp ⟨net ++ transport ++ rest, 0⟩ ⟨transport ++ rest, transport.length - 20⟩
        (20 + transport.length, size)) := by
  have hlength : net.length = 20 := by rw [hnet.length_eq, hwords]
  have hview := hnet.parsePacket_plain hwords (transport ++ rest)
  rw [← List.append_assoc] at hview
  have hdrop : (net ++ transport ++ rest).drop 20 = transport ++ rest := by
    rw [List.append_assoc, List.drop_left' hlength]
  rw [ipv4Tcp, hview, ok_bind]
  change (TcpPacketView.parsePacket ((net ++ transport ++ rest).drop 20) >>= fun view => _) = _
  rw [hdrop, htransport.parsePacket_view rest, ok_bind, TcpPacketView.getSize,
    htransport.size_toNat]
  rfl

/-- Without options the views of a packet carrying UDP are those of its parts. -/
theorem FullPacketView.ipv4Udp_plain (rest : List UByte) (size : ℕ) :
    ipv4Udp (net ++ rest) size = .ok (.udp ⟨net ++ rest, 0⟩ ⟨rest⟩ (28, size)) := by
  have hlength : net.length = 20 := by rw [hnet.length_eq, hwords]
  have hdrop : (net ++ rest).drop 20 = rest := List.drop_left' hlength
  rw [ipv4Udp, hnet.parsePacket_plain hwords, ok_bind]
  change Except.ok (FullPacketView.udp _ ⟨(net ++ rest).drop 20⟩ _) = _
  rw [hdrop]
  rfl

end Plain

/-- A copied packet carrying TCP consists of its parts. -/
theorem Ipv4TcpFatPacket.ofBytes_layout {net transport : List UByte} (hnet : IsIpv4Layout net)
    (htransport : IsTcpLayout transport) (hle : net.length + transport.length ≤ 65535)
    (payload behind : List UByte) :
    ofBytes (net ++ transport ++ payload ++ behind) (net ++ transport ++ payload).length =
      .ok ⟨⟨net⟩, ⟨transport⟩, payload, []⟩ := by
  have hsize : (Ipv4PacketLittleEndian.getSize ⟨net⟩).toNat = net.length :=
    UInt16.toNat_ofNat_of_lt (by change net.length < 65536; omega)
  have hheader : (TcpPacketLittleEndian.getSize ⟨transport⟩).toNat = transport.length :=
    UInt16.toNat_ofNat_of_lt (by change transport.length < 65536; omega)
  have hpayload : slice (net ++ transport ++ payload ++ behind)
      ((net.length : ℤ) + transport.length) (net ++ transport ++ payload).length = .ok payload :=
    slice_append (net ++ transport) payload behind _ _ (by rw [List.length_append]; rfl)
      (by rw [List.length_append]; rfl)
  have hcopy := hnet.parsePacket_object (transport ++ payload ++ behind)
  have hsecond := htransport.parsePacket_object (payload ++ behind)
  simp only [← List.append_assoc] at hcopy hsecond
  have hdrop : (net ++ transport ++ payload ++ behind).drop net.length =
      transport ++ payload ++ behind := by
    rw [List.append_assoc, List.append_assoc, List.drop_left, ← List.append_assoc]
  rw [ofBytes, hcopy, ok_bind, hsize, hdrop, hsecond, ok_bind, hheader, hpayload]
  rfl

/-- A copied UDP header takes everything behind the IP header along. -/
theorem Ipv4UdpFatPacket.ofBytes_layout {net : List UByte} (hnet : IsIpv4Layout net)
    (rest : List UByte) (hle : net.length + rest.length ≤ 65535) (behind : List UByte) :
    ofBytes (net ++ rest ++ behind) (net ++ rest).length = .ok ⟨⟨net⟩, ⟨rest⟩, [], []⟩ := by
  have hsize : (Ipv4PacketLittleEndian.getSize ⟨net⟩).toNat = net.length :=
    UInt16.toNat_ofNat_of_lt (by change net.length < 65536; omega)
  have hheader : (UdpPacketLittleEndian.getSize ⟨rest⟩).toNat = rest.length :=
    UInt16.toNat_ofNat_of_lt (by change rest.length < 65536; omega)
  have hnone : slice (net ++ rest ++ behind) ((net.length : ℤ) + rest.length)
      (net ++ rest).length = .ok [] := by
    have hempty := slice_append (net ++ rest) [] behind (net ++ rest).length (net ++ rest).length
      rfl (by rw [List.length_nil]; omega)
    rw [List.append_nil] at hempty
    rw [← hempty, List.length_append]
    rfl
  have hcopy := hnet.parsePacket_object (rest ++ behind)
  rw [← List.append_assoc] at hcopy
  have hdrop : (net ++ rest ++ behind).drop net.length = rest ++ behind := by
    rw [List.append_assoc, List.drop_left]
  have hall : slice (rest ++ behind) 0 (((net ++ rest).length : ℤ) - net.length) = .ok rest :=
    slice_prefix _ _ _ (by rw [List.length_append]; omega)
  rw [ofBytes, hcopy, ok_bind, hsize, hdrop, UdpPacketLittleEndian.parsePacket, hall]
  change (slice (net ++ rest ++ behind)
    ((net.length : ℤ) + ((UdpPacketLittleEndian.getSize ⟨rest⟩).toNat : ℤ))
    (net ++ rest).length >>= fun payload => _) = _
  rw [hheader, hnone]
  rfl

namespace IsIpv4Packet

variable {proto : TransportProtocol} {net transport payload : List UByte}
  (h : IsIpv4Packet proto net transport payload)
include h

/-- No size of the packet exceeds a 16-bit number. -/
theorem total_le : net.length + transport.length + payload.length ≤ 65535 := by
  have hlt := (join (net.getD 2 0) (net.getD 3 0)).toNat_lt
  have htotal := h.total_length
  omega

/-- Sizes of parts of the packet are their lengths. -/
theorem size_toNat (n : ℕ) (hn : n ≤ net.length + transport.length + payload.length) :
    (UInt16.ofNat n).toNat = n := by
  have htotal := h.total_le
  rw [UInt16.toNat_ofNat', Nat.mod_eq_of_lt (by omega)]

/-- The copied headers of a packet carrying TCP are its headers. -/
theorem fat_tcp (htransport : IsTcpLayout transport) (behind : List UByte) :
    PacketForm.fat.CutsExactly .TCP net transport payload behind := by
  have hnet : (Ipv4PacketLittleEndian.getSize ⟨net⟩).toNat = net.length :=
    h.size_toNat net.length (by omega)
  have hheader : (TcpPacketLittleEndian.getSize ⟨transport⟩).toNat = transport.length :=
    h.size_toNat transport.length (by omega)
  have hof := Ipv4TcpFatPacket.ofBytes_layout h.layout htransport
    (Nat.le_of_add_right_le h.total_le) payload behind
  rw [PacketForm.CutsExactly, PacketForm.boundaries, if_pos rfl, hof, ok_bind, hnet, hheader,
    h.layout.length_eq]
  rfl

/-- The copied parts have the sizes of the parts they are copied from. -/
theorem fat_sizes : (Ipv4PacketLittleEndian.getSize ⟨net⟩).toNat = net.length ∧
    (UdpPacketLittleEndian.getSize ⟨transport ++ payload⟩).toNat =
      transport.length + payload.length := by
  refine ⟨h.size_toNat net.length (by omega), ?_⟩
  rw [← List.length_append]
  exact h.size_toNat (transport ++ payload).length (by rw [List.length_append]; omega)

/-- The copied UDP header takes the payload along. -/
theorem ofBytes_udp (behind : List UByte) :
    Ipv4UdpFatPacket.ofBytes (net ++ transport ++ payload ++ behind)
      (net ++ transport ++ payload).length = .ok ⟨⟨net⟩, ⟨transport ++ payload⟩, [], []⟩ := by
  have hof := Ipv4UdpFatPacket.ofBytes_layout h.layout (transport ++ payload)
    (by rw [List.length_append, ← Nat.add_assoc]; exact h.total_le) behind
  rwa [← List.append_assoc] at hof

/-- Nothing is left for the payload of the copy. -/
theorem fat_udp (behind : List UByte) :
    PacketForm.fat.CutsExactly .UDP net transport payload behind ↔ payload = [] := by
  obtain ⟨hnet, hheader⟩ := h.fat_sizes
  rw [PacketForm.CutsExactly, PacketForm.boundaries, if_neg (by decide), h.ofBytes_udp, ok_bind,
    hnet, hheader, h.layout.length_eq]
  constructor
  · intro heq
    exact (congrArg Boundaries.payload (Except.ok.inj heq)).symm
  · intro hempty
    rw [hempty]
    simp only [Ipv4UdpFatPacket.bytes, List.append_nil, List.nil_append, List.length_nil,
      Nat.add_zero]
    rfl

/-- Views over the packet are exact when it has no options. -/
theorem view_plain (hwords : declaredWords net = 5) (behind : List UByte) :
    PacketForm.view.CutsExactly proto net transport payload behind := by
  have hlength : net.length = 20 := by rw [h.layout.length_eq, hwords]
  have hwhole : slice (net ++ transport ++ payload ++ behind) 0
      (net ++ transport ++ payload).length = .ok (net ++ transport ++ payload) :=
    slice_prefix _ _ _ rfl
  have hpayload : slice (net ++ transport ++ payload ++ behind) (20 + transport.length)
      (net ++ transport ++ payload).length = .ok payload :=
    slice_append (net ++ transport) payload behind _ _
      (by rw [List.length_append, hlength]; rfl) (by rw [List.length_append]; rfl)
  rw [PacketForm.CutsExactly, PacketForm.boundaries]
  rcases h.transport_header with ⟨rfl, htransport⟩ | ⟨rfl, htransport, -⟩
  · rw [if_pos rfl, List.append_assoc (net ++ transport),
      FullPacketView.ipv4Tcp_plain h.layout hwords htransport, ok_bind, ← List.append_assoc,
      FullPacketView.boundaries_tcp, hpayload, ok_bind, hwhole, hwords]
    rfl
  · have hviews := FullPacketView.ipv4Udp_plain h.layout hwords (transport ++ payload ++ behind)
      (net ++ transport ++ payload).length
    simp only [← List.append_assoc] at hviews
    rw [htransport] at hpayload
    rw [if_neg (by decide), hviews, ok_bind,
      FullPacketView.boundaries_udp]
    change (slice _ (20 + ((8 : ℕ) : ℤ)) _ >>= fun data => _) = _
    rw [hpayload, ok_bind, hwhole, hwords, htransport]
    rfl

/-- Views over the packet are exact only when it has no options. -/
theorem view_iff (behind : List UByte) :
    PacketForm.view.CutsExactly proto net transport payload behind ↔ declaredWords net = 5 := by
  constructor
  · intro hcuts
    rw [PacketForm.CutsExactly, PacketForm.boundaries] at hcuts
    obtain ⟨view, hview, hcuts⟩ := bind_eq_ok_iff.mp hcuts
    obtain ⟨ip, hip, hsize⟩ := h.layout.parsePacket_view (transport ++ payload ++ behind)
    simp only [← List.append_assoc] at hip
    have hmade : FullPacketView.ipv4Tcp (net ++ transport ++ payload ++ behind)
          (net ++ transport ++ payload).length = .ok view ∨
        FullPacketView.ipv4Udp (net ++ transport ++ payload ++ behind)
          (net ++ transport ++ payload).length = .ok view := by
      split at hview
      · exact .inl hview
      · exact .inr hview
    have hat := FullPacketView.transportAt_eq hip hmade hcuts
    rw [hsize] at hat
    dsimp only at hat
    omega
  · intro hwords
    exact h.view_plain hwords behind

end IsIpv4Packet

/-- Each form of a complete packet is right exactly where its counting makes no difference: the
copied headers for TCP or an empty payload, the views for an IPv4 header without options. -/
theorem cutsExactly_iff_countsRight (form : PacketForm) {proto : TransportProtocol}
    {net transport payload : List UByte} (h : IsIpv4Packet proto net transport payload)
    (behind : List UByte) :
    form.CutsExactly proto net transport payload behind ↔ form.CountsRight proto net payload := by
  cases form with
  | fat =>
    rcases h.transport_header with ⟨rfl, htransport⟩ | ⟨rfl, -, -⟩
    · exact iff_of_true (h.fat_tcp htransport behind) (.inl rfl)
    · rw [h.fat_udp behind, PacketForm.CountsRight, or_iff_right (by decide)]
  | object => rw [PacketForm.object_iff_view behind, h.view_iff, PacketForm.CountsRight]
  | view => rw [h.view_iff, PacketForm.CountsRight]

/-- An IPv4 header with a four-byte option, before 27 bytes of a TCP segment. -/
def routedHeader : List UByte :=
  [0x46, 0, 0, 51, 0, 1, 0x40, 0, 64, 6, 0, 0, 10, 0, 0, 1, 10, 0, 0, 2, 7, 4, 4, 0]

/-- A plain IPv4 header, before eleven bytes of a UDP datagram. -/
def datagramHeader : List UByte :=
  [0x45, 0, 0, 31, 0, 1, 0x40, 0, 64, 17, 0, 0, 10, 0, 0, 1, 10, 0, 0, 2]

/-- The view goes wrong on an IPv4 option, the copied headers on a UDP payload. -/
theorem routedHeader_datagram_not_cut :
    (IsIpv4Packet .TCP routedHeader optionHeader [1, 2, 3] ∧
      ¬ PacketForm.view.CutsExactly .TCP routedHeader optionHeader [1, 2, 3] []) ∧
    (IsIpv4Packet .UDP datagramHeader [0, 53, 4, 210, 0, 11, 0, 0] [1, 2, 3] ∧
      ¬ PacketForm.fat.CutsExactly .UDP datagramHeader [0, 53, 4, 210, 0, 11, 0, 0] [1, 2, 3] []) := by
  refine ⟨⟨⟨by decide, ⟨by decide, by decide⟩, by decide, by decide,
    .inl ⟨rfl, ⟨by decide, by decide⟩⟩⟩, ?_⟩,
    ⟨⟨by decide, ⟨by decide, by decide⟩, by decide, by decide, .inr ⟨rfl, by decide, by decide⟩⟩, ?_⟩⟩
  · unfold PacketForm.CutsExactly
    decide
  · unfold PacketForm.CutsExactly
    decide

/-- The copied headers of the TCP packet with an option are cut exactly, with memory behind. -/
theorem cutsExactly_iff_countsRight_routed :
    PacketForm.fat.CutsExactly .TCP routedHeader optionHeader [1, 2, 3] [0, 0] ↔
      PacketForm.fat.CountsRight .TCP routedHeader [1, 2, 3] :=
  cutsExactly_iff_countsRight .fat ⟨by decide, ⟨by decide, by decide⟩, by decide, by decide,
    .inl ⟨rfl, ⟨by decide, by decide⟩⟩⟩ [0, 0]

end QVPN
