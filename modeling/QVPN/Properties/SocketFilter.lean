import QVPN.Driver.SocketFilter

/-!
# What the socket filter accepts

The key that the program writes and the key that the filter builds are the same bytes exactly when
the endpoints agree, on machines of either byte order. But the filter looks for the ports behind
twenty bytes, wherever the network header ends.
-/

namespace QVPN

open BigEndian Memory

/-- A connection of IPv4 that carries TCP or UDP between addresses of four bytes. -/
structure QVPNServerSocketData.Ipv4Connection (k : QVPNServerSocketData) : Prop where
  netProto : k.netProto = .IPv4
  transportProto : k.transportProto = .TCP ∨ k.transportProto = .UDP
  remoteAddr : k.remoteAddr.ip.length = 4
  serverLocalAddr : k.serverLocalAddr.ip.length = 4

/-- The length of the network header in words. -/
def headerWords (skb : List UByte) : ℕ := (skb.getD 0 0 &&& 0xF).toNat

namespace QVPNServerSocketData

/-- The packet begins with a fixed IPv4 header of the protocol and the addresses of the connection.
What arrives comes from the remote end. -/
structure HeaderMatches (k : QVPNServerSocketData) (skb : List UByte) : Prop where
  fixed : 20 ≤ skb.length
  version : skb.getD 0 0 >>> 4 = 4
  protocol : skb.getD 9 0 = k.transportProto.val
  source : (skb.drop 12).take 4 = k.remoteAddr.ip
  dst : (skb.drop 16).take 4 = k.serverLocalAddr.ip

/-- A whole transport header with the ports of the connection begins at an offset. -/
structure PortsAt (k : QVPNServerSocketData) (skb : List UByte) (offset : ℕ) : Prop where
  complete : offset + transportHeaderSize k.transportProto.val ≤ skb.length
  source : (skb.drop offset).take 2 = bytes16 k.remotePort
  dst : (skb.drop (offset + 2)).take 2 = bytes16 k.localPort

/-- The packet is a complete packet of the connection. -/
structure Matches (k : QVPNServerSocketData) (skb : List UByte) : Prop where
  header : k.HeaderMatches skb
  words : 5 ≤ headerWords skb
  ports : k.PortsAt skb (headerWords skb * 4)

end QVPNServerSocketData

/-- The filter with the entry of a connection accepts a packet. -/
def Accepts (order : ByteOrder) (filter : FilterKey) (k : QVPNServerSocketData)
    (skb : List UByte) : Prop :=
  filterByAddrPort order (filterMap order (QVPNSocketFilter.ofServerSocketData order filter k)) skb = -1

/-- The elements of a range, one by one. -/
theorem take_drop_getD {skb : List UByte} {i n : ℕ} (h : i + n ≤ skb.length) :
    (skb.drop i).take n = (List.range n).map fun j => skb.getD (i + j) 0 := by
  refine List.ext_getElem (by simp; omega) fun j hj hj' => ?_
  rw [List.length_map, List.length_range] at hj'
  rw [List.getElem_take, List.getElem_drop, List.getElem_map, List.getElem_range,
    List.getD_eq_getElem?_getD, List.getElem?_eq_getElem (by omega), Option.getD_some]

/-- The key of a connection in bytes, on any machine. -/
theorem ofServerSocketData_bytes (order : ByteOrder) (filter : FilterKey) {k : QVPNServerSocketData}
    (h : k.Ipv4Connection) :
    (QVPNSocketFilter.ofServerSocketData order filter k).bytes order =
      [4, k.transportProto.val] ++ k.remoteAddr.ip ++ bytes16 k.remotePort ++
        k.serverLocalAddr.ip ++ bytes16 k.localPort := by
  have hword (a : NetAddr) (ha : a.ip.length = 4) : bytes32 a.toUint = a.ip := by
    obtain ⟨ip⟩ := a
    match ip, ha with
    | [b0, b1, b2, b3], _ => exact bytes32_join32 b0 b1 b2 b3
  simp only [FilterKey.bytes, QVPNSocketFilter.ofServerSocketData, h.netProto, if_true,
    ByteOrder.store32_htonl, ByteOrder.store16_htons, hword _ h.remoteAddr,
    hword _ h.serverLocalAddr]
  rfl

/-- The key of a packet in bytes, on any machine. -/
theorem packetKey_bytes (order : ByteOrder) (ip header : List UByte) (version protocol : UByte)
    (hip : 20 ≤ ip.length) (hheader : 4 ≤ header.length) :
    (FilterKey.mk version protocol (Iphdr.saddr order ip) (transportPorts order header).1
        (Iphdr.daddr order ip) (transportPorts order header).2).bytes order =
      [version, protocol] ++ (ip.drop 12).take 4 ++ header.take 2 ++ (ip.drop 16).take 4 ++
        (header.drop 2).take 2 := by
  have hports : header.take 2 = (header.drop 0).take 2 := by rw [List.drop_zero]
  rw [hports, take_drop_getD (show 12 + 4 ≤ ip.length by omega),
    take_drop_getD (show 16 + 4 ≤ ip.length by omega),
    take_drop_getD (show 0 + 2 ≤ header.length by omega),
    take_drop_getD (show 2 + 2 ≤ header.length by omega)]
  simp only [FilterKey.bytes, Iphdr.saddr, Iphdr.daddr, transportPorts, ByteOrder.store32_load32,
    ByteOrder.store16_load16]
  rfl

/-- A range of the packet can be loaded if it is there. -/
theorem bpfSkbLoadBytes_eq_some_iff {skb bytes : List UByte} {offset len : ℕ} :
    bpfSkbLoadBytes skb offset len = some bytes ↔
      offset + len ≤ skb.length ∧ bytes = (skb.drop offset).take len := by
  unfold bpfSkbLoadBytes
  split
  · next hfits =>
    rw [Option.some.injEq]
    exact ⟨fun h => ⟨hfits, h.symm⟩, fun h => h.2.symm⟩
  · next hfits =>
    simp [hfits]

/-- The structure of the network header consists of the first bytes of the packet. -/
theorem getD_fixed {skb : List UByte} {i : ℕ} (h : i < 20) :
    ((skb.drop 0).take Iphdr.size).getD i 0 = skb.getD i 0 := by
  rw [List.drop_zero]
  exact getD_take h skb 0

theorem take_drop_fixed {skb : List UByte} {i : ℕ} (h : i + 4 ≤ 20) :
    (((skb.drop 0).take Iphdr.size).drop i).take 4 = (skb.drop i).take 4 := by
  rw [List.drop_zero, List.drop_take, List.take_take, Nat.min_eq_left]
  exact Nat.le_sub_of_add_le (by rw [Iphdr.size]; omega)

/-- Keys of equal bytes are of the same protocol. -/
theorem FilterKey.transportProto_eq {order : ByteOrder} {key key' : FilterKey}
    (h : key.bytes order = key'.bytes order) : key.transportProto = key'.transportProto := by
  simp only [FilterKey.bytes, List.cons_append, List.cons.injEq] at h
  exact h.2.1

/-- The filter accepts a packet if the key that it builds has the bytes of the entry. -/
theorem filterByAddrPort_eq_neg_one_iff {order : ByteOrder} {filter : FilterKey}
    {skb : List UByte} :
    filterByAddrPort order (filterMap order filter) skb = -1 ↔
      20 ≤ skb.length ∧ skb.getD 0 0 >>> 4 = 4 ∧
        ∃ ports, loadPorts order skb (skb.getD 9 0) = some ports ∧
          (FilterKey.mk 4 (skb.getD 9 0) (Iphdr.saddr order ((skb.drop 0).take Iphdr.size)) ports.1
            (Iphdr.daddr order ((skb.drop 0).take Iphdr.size)) ports.2).bytes order =
              filter.bytes order := by
  by_cases hfixed : 20 ≤ skb.length
  · have hload : bpfSkbLoadBytes skb 0 Iphdr.size = some ((skb.drop 0).take Iphdr.size) :=
      bpfSkbLoadBytes_eq_some_iff.mpr ⟨by rw [Iphdr.size]; omega, rfl⟩
    have hversion : Iphdr.version ((skb.drop 0).take Iphdr.size) = skb.getD 0 0 >>> 4 := by
      rw [Iphdr.version, getD_fixed (by decide)]
    have hprotocol : Iphdr.protocol ((skb.drop 0).take Iphdr.size) = skb.getD 9 0 :=
      getD_fixed (by decide)
    rw [filterByAddrPort, hload]
    dsimp only
    rw [hversion]
    by_cases hfour : skb.getD 0 0 >>> 4 = 4
    · rw [if_pos hfour, filterByAddrPortIpv4, hload]
      dsimp only
      rw [hprotocol, hversion, hfour]
      cases hports : loadPorts order skb (skb.getD 9 0) with
      | none => simp
      | some ports =>
        simp only [hfixed, Option.some.injEq, true_and, exists_eq_left', filterMap]
        split_ifs with hkey
        · exact iff_of_true rfl hkey
        · exact iff_of_false (by decide) hkey
    · rw [if_neg hfour]
      exact iff_of_false (by decide) fun h => hfour h.2.1
  · have hload : bpfSkbLoadBytes skb 0 Iphdr.size = none := by
      rw [bpfSkbLoadBytes, if_neg (by rw [Iphdr.size]; omega)]
    rw [filterByAddrPort, hload]
    simp [hfixed]

/-- A concatenation of parts of equal lengths is equal part by part. -/
theorem append_parts_inj {a a' b b' c c' d d' e e' : List UByte} (ha : a.length = a'.length)
    (hb : b.length = b'.length) (hc : c.length = c'.length) (hd : d.length = d'.length) :
    a ++ b ++ c ++ d ++ e = a' ++ b' ++ c' ++ d' ++ e' ↔
      a = a' ∧ b = b' ∧ c = c' ∧ d = d' ∧ e = e' := by
  constructor
  · intro h
    obtain ⟨h, he⟩ := List.append_inj h (by simp [ha, hb, hc, hd])
    obtain ⟨h, hd⟩ := List.append_inj h (by simp [ha, hb, hc])
    obtain ⟨h, hc⟩ := List.append_inj h (by simp [ha, hb])
    obtain ⟨ha, hb⟩ := List.append_inj h ha
    exact ⟨ha, hb, hc, hd, he⟩
  · intro ⟨ha, hb, hc, hd, he⟩
    rw [ha, hb, hc, hd, he]

/-- TCP and UDP headers are long enough for the ports. -/
theorem QVPNServerSocketData.Ipv4Connection.four_le_size {k : QVPNServerSocketData}
    (hk : k.Ipv4Connection) : 4 ≤ transportHeaderSize k.transportProto.val := by
  obtain htcp | hudp := hk.transportProto
  · rw [htcp]; decide
  · rw [hudp]; decide

/-- The filter loads the ports of a connection behind twenty bytes, if a whole transport header lies
there. -/
theorem loadPorts_eq_some_iff {order : ByteOrder} {k : QVPNServerSocketData} (hk : k.Ipv4Connection)
    {skb : List UByte} {ports : UShort × UShort} :
    loadPorts order skb k.transportProto.val = some ports ↔
      20 + transportHeaderSize k.transportProto.val ≤ skb.length ∧
        ports = transportPorts order
          ((skb.drop 20).take (transportHeaderSize k.transportProto.val)) := by
  have hload : loadPorts order skb k.transportProto.val =
      (bpfSkbLoadBytes skb 20 (transportHeaderSize k.transportProto.val)).map
        (transportPorts order) := by
    obtain htcp | hudp := hk.transportProto
    · rw [htcp]; rfl
    · rw [hudp]; rfl
  rw [hload, Option.map_eq_some_iff]
  constructor
  · intro ⟨header, hheader, hports⟩
    obtain ⟨hcomplete, hheader⟩ := bpfSkbLoadBytes_eq_some_iff.mp hheader
    rw [← hports, hheader]
    exact ⟨hcomplete, rfl⟩
  · intro ⟨hcomplete, hports⟩
    exact ⟨_, bpfSkbLoadBytes_eq_some_iff.mpr ⟨hcomplete, rfl⟩, hports.symm⟩

/-- The key of a packet has the bytes of the entry when addresses and ports agree. -/
theorem packetKey_eq_iff (order : ByteOrder) (filter : FilterKey) {k : QVPNServerSocketData}
    (hk : k.Ipv4Connection) {skb : List UByte}
    (hcomplete : 20 + transportHeaderSize k.transportProto.val ≤ skb.length) :
    let ip := (skb.drop 0).take Iphdr.size
    let ports := transportPorts order
      ((skb.drop 20).take (transportHeaderSize k.transportProto.val))
    (FilterKey.mk 4 k.transportProto.val (Iphdr.saddr order ip) ports.1 (Iphdr.daddr order ip)
        ports.2).bytes order = (QVPNSocketFilter.ofServerSocketData order filter k).bytes order ↔
      (skb.drop 12).take 4 = k.remoteAddr.ip ∧ (skb.drop 20).take 2 = bytes16 k.remotePort ∧
        (skb.drop 16).take 4 = k.serverLocalAddr.ip ∧
          (skb.drop (20 + 2)).take 2 = bytes16 k.localPort := by
  intro ip ports
  have hsize := hk.four_le_size
  have hip : 20 ≤ ip.length := by
    rw [List.length_take, List.drop_zero, Iphdr.size]
    omega
  have hheader : 4 ≤ ((skb.drop 20).take (transportHeaderSize k.transportProto.val)).length := by
    rw [List.length_take, List.length_drop]
    omega
  have hrange (i n : ℕ) (hi : i + n ≤ skb.length) : ((skb.drop i).take n).length = n := by
    rw [List.length_take, List.length_drop]
    omega
  rw [packetKey_bytes order ip _ 4 _ hip hheader, take_drop_fixed (by decide),
    take_drop_fixed (by decide), ofServerSocketData_bytes order filter hk, List.take_take,
    Nat.min_eq_left (by omega), List.drop_take, List.take_take, Nat.min_eq_left (by omega),
    List.drop_drop, append_parts_inj rfl
      (by rw [hrange 12 4 (by omega), hk.remoteAddr])
      (by rw [hrange 20 2 (by omega), bytes16_length])
      (by rw [hrange 16 4 (by omega), hk.serverLocalAddr])]
  exact and_iff_right rfl

/-- The filter accepts exactly the packets whose fixed header belongs to the connection and that
have a whole transport header with its ports behind twenty bytes. -/
theorem accepts_iff (order : ByteOrder) (filter : FilterKey) {k : QVPNServerSocketData}
    (hk : k.Ipv4Connection) (skb : List UByte) :
    Accepts order filter k skb ↔ k.HeaderMatches skb ∧ k.PortsAt skb 20 := by
  rw [Accepts, filterByAddrPort_eq_neg_one_iff]
  constructor
  · intro ⟨hfixed, hversion, ports, hload, hbytes⟩
    have hprotocol : skb.getD 9 0 = k.transportProto.val := FilterKey.transportProto_eq hbytes
    rw [hprotocol] at hload hbytes
    obtain ⟨hcomplete, rfl⟩ := (loadPorts_eq_some_iff hk).mp hload
    obtain ⟨hsource, hsourcePort, hdst, hdstPort⟩ :=
      (packetKey_eq_iff order filter hk hcomplete).mp hbytes
    exact ⟨⟨hfixed, hversion, hprotocol, hsource, hdst⟩, hcomplete, hsourcePort, hdstPort⟩
  · intro ⟨hheader, hports⟩
    refine ⟨hheader.fixed, hheader.version, _,
      hheader.protocol ▸ (loadPorts_eq_some_iff hk).mpr ⟨hports.complete, rfl⟩, ?_⟩
    rw [hheader.protocol]
    exact (packetKey_eq_iff order filter hk hports.complete).mpr
      ⟨hheader.source, hports.source, hheader.dst, hports.dst⟩

/-- For every connection and packet, the filter accepts the packet exactly when it is one of the
connection, if and only if its network header has five words, or does not belong to the connection,
or the ports of the connection stand behind twenty bytes exactly when they stand behind a network
header of at least five words. -/
theorem accepts_iff_matches_iff (order : ByteOrder) (filter : FilterKey) (k : QVPNServerSocketData)
    (hk : k.Ipv4Connection) (skb : List UByte) :
    (Accepts order filter k skb ↔ k.Matches skb) ↔
      headerWords skb = 5 ∨ ¬k.HeaderMatches skb ∨
        (k.PortsAt skb 20 ↔ 5 ≤ headerWords skb ∧ k.PortsAt skb (headerWords skb * 4)) := by
  have hmatches : k.Matches skb ↔
      k.HeaderMatches skb ∧ 5 ≤ headerWords skb ∧ k.PortsAt skb (headerWords skb * 4) :=
    ⟨fun h => ⟨h.header, h.words, h.ports⟩, fun ⟨hheader, hwords, hports⟩ =>
      ⟨hheader, hwords, hports⟩⟩
  rw [accepts_iff order filter hk, hmatches, and_congr_right_iff]
  by_cases hfive : headerWords skb = 5
  · simp [hfive]
  · simp only [hfive, false_or]
    exact imp_iff_not_or

/-- A connection from a name server. -/
def dnsConnection : QVPNServerSocketData where
  netProto := .IPv4
  transportProto := .UDP
  clientLocalAddr := ⟨[10, 0, 0, 2]⟩
  serverLocalAddr := ⟨[10, 0, 0, 1]⟩
  localPort := 5000
  remoteAddr := ⟨[8, 8, 8, 8]⟩
  remotePort := 53

/-- An empty datagram of this connection with the given words of options in its network header. -/
def dnsPacket (words : UByte) (options : List UByte) : List UByte :=
  [0x40 ||| words, 0, 0, 28, 0, 0, 0, 0, 64, 17, 0, 0, 8, 8, 8, 8, 10, 0, 0, 1] ++ options ++
    [0, 53, 0x13, 0x88, 0, 8, 0, 0]

theorem dnsConnection_ipv4 : dnsConnection.Ipv4Connection := ⟨rfl, .inr rfl, rfl, rfl⟩

/-- A datagram behind one word of options belongs to the connection, but is rejected. One whose
options look like the ports is accepted, though its ports are others. -/
theorem dnsPacket_not_exact (order : ByteOrder) (filter : FilterKey) :
    (dnsConnection.Matches (dnsPacket 6 [1, 1, 1, 0]) ∧
      ¬Accepts order filter dnsConnection (dnsPacket 6 [1, 1, 1, 0])) ∧
    (Accepts order filter dnsConnection (dnsPacket 6 [0, 53, 0x13, 0x88, 0, 53, 0, 53]) ∧
      ¬dnsConnection.Matches (dnsPacket 6 [0, 53, 0x13, 0x88, 0, 53, 0, 53])) := by
  rw [accepts_iff order filter dnsConnection_ipv4, accepts_iff order filter dnsConnection_ipv4]
  refine ⟨⟨⟨⟨by decide, by decide, by decide, by decide, by decide⟩, by decide,
    ⟨by decide, by decide, by decide⟩⟩, fun h => ?_⟩, ⟨⟨by decide, by decide, by decide, by decide,
    by decide⟩, ⟨by decide, by decide, by decide⟩⟩, fun h => ?_⟩
  · exact absurd h.2.source (by decide)
  · exact absurd h.ports.dst (by decide)

/-- A machine of either order rejects a datagram of the connection. -/
theorem dnsPacket_rejected :
    (dnsConnection.Ipv4Connection ∧ dnsConnection.Matches (dnsPacket 6 [1, 1, 1, 0])) ∧
      ¬Accepts .little ⟨0, 0, 0, 0, 0, 0⟩ dnsConnection (dnsPacket 6 [1, 1, 1, 0]) ∧
      ¬Accepts .big ⟨0, 0, 0, 0, 0, 0⟩ dnsConnection (dnsPacket 6 [1, 1, 1, 0]) :=
  ⟨⟨dnsConnection_ipv4, (dnsPacket_not_exact .little ⟨0, 0, 0, 0, 0, 0⟩).1.1⟩,
    (dnsPacket_not_exact .little ⟨0, 0, 0, 0, 0, 0⟩).1.2,
    (dnsPacket_not_exact .big ⟨0, 0, 0, 0, 0, 0⟩).1.2⟩

/-- A datagram without options is accepted as it should be. -/
theorem dnsPacket_exact :
    dnsConnection.Ipv4Connection ∧
      (Accepts .little ⟨0, 0, 0, 0, 0, 0⟩ dnsConnection (dnsPacket 5 []) ↔
        dnsConnection.Matches (dnsPacket 5 [])) :=
  ⟨dnsConnection_ipv4, (accepts_iff_matches_iff .little ⟨0, 0, 0, 0, 0, 0⟩ dnsConnection
    dnsConnection_ipv4 (dnsPacket 5 [])).mpr (.inl (by decide))⟩

end QVPN
