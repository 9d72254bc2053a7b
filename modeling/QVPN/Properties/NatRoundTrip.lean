import QVPN.Properties.RequestLoop

/-!
# The round trip of an address translation

A client packet comes out of the server with the server's address in place of the client's. A
remote host answers to that address. The server finds the client's address in the key of the
connection, puts it in as the destination, and sends the answer through the tunnel.

The server prints an answer before it encodes it, and the print of a TCP header walks its
options. An option whose length byte is zero keeps the walk where it is, so such an answer is
never encoded. Every other answer arrives with the addresses exchanged.
-/

namespace QVPN

open BigEndian Memory QVPNLayersSettings QVPNPacketManager

/-- A packet that a remote host sends to the server. -/
structure Reply where
  ipHeader : List UByte
  transportHeader : List UByte
  payload : List UByte
  deriving DecidableEq, Repr

namespace Reply

def bytes (r : Reply) : List UByte := r.ipHeader ++ r.transportHeader ++ r.payload

/-- The memory from the TCP options on, to the end of the buffer the packet is received in. -/
def optionMemory (r : Reply) : List UByte := (receiveBuffer r.bytes).drop 40

/-- An IPv4 packet without IP options, with any transport header of the protocol and any payload
below the maximum. -/
structure WellFormed (r : Reply) (proto : TransportProtocol) : Prop where
  ip_length : r.ipHeader.length = 20
  version : readAt r.ipHeader 0 = .ok 0x45
  protocol : readAt r.ipHeader 9 = .ok proto.val
  transport : (proto = .UDP ∧ r.transportHeader.length = 8) ∨
    (proto = .TCP ∧ ∃ b, readAt r.transportHeader 12 = .ok b ∧ 5 ≤ (b >>> 4).toNat ∧
      r.transportHeader.length = 4 * (b >>> 4).toNat)
  payload_lt : r.payload.length < 65229

/-- The packet comes from where the request went, and goes to where the forwarded request came
from. -/
structure Answers (r : Reply) (request : QTunnelData) (forwarded : List UByte) : Prop where
  wellFormed : r.WellFormed request.transportProtocol
  source : slice r.ipHeader 12 16 = .ok request.dstAddr.ip
  sourcePort : read16 r.transportHeader 0 = .ok request.dstPort
  destination : slice r.ipHeader 16 20 = slice forwarded 12 16
  destinationPort : read16 r.transportHeader 2 = read16 forwarded 20

/-- No option that the print of the packet visits has the length zero. -/
def OptionsAdvance (r : Reply) (proto : TransportProtocol) : Prop :=
  proto = .TCP →
    TcpOptionsView.OptionsAdvance r.optionMemory (r.transportHeader.length - 20) 0

/-- What the server makes of a received packet. -/
structure ParsedAs (r : Reply) (proto : TransportProtocol) (src : List UByte) (srcPort : UShort)
    (response : FullPacketView) : Prop where
  parse : FullPacketView.preParse (receiveBuffer r.bytes) r.bytes.length = .ok response
  version : response.getProtocolVersion = .ok .IPv4
  transport : response.getTransportProtocol = .ok proto
  source : response.getSrcAddr = .ok ⟨src⟩
  sourcePort : response.getSrcPort = .ok srcPort
  payload : response.getPayload (receiveBuffer r.bytes) = .ok r.payload
  collect : ∃ protoData, response.collectProtoData = .ok protoData
  reset : ∃ reset, response.isResetConnectionPacket = .ok reset
  print : (∃ u, response.toPacketFriendlyView = .ok u) ↔ r.OptionsAdvance proto

variable {r : Reply} {proto : TransportProtocol} {src : List UByte} {srcPort : UShort}

/-- The receive buffer is larger than the packet. -/
theorem WellFormed.exists_buffer (h : r.WellFormed proto) : ∃ tail, tail ≠ [] ∧
    receiveBuffer r.bytes = r.ipHeader ++ (r.transportHeader ++ r.payload ++ tail) := by
  have hip := h.ip_length
  have hpayload := h.payload_lt
  have htransport : r.transportHeader.length ≤ 60 := by
    rcases h.transport with ⟨-, hudp⟩ | ⟨-, b, -, -, htcp⟩
    · omega
    · have hnibble := highNibble_le b
      omega
  refine ⟨List.replicate (65536 - r.bytes.length) 0, ?_, ?_⟩
  · apply List.ne_nil_of_length_pos
    rw [List.length_replicate, bytes, List.length_append, List.length_append]
    omega
  · rw [receiveBuffer, bytes]
    simp only [List.append_assoc]

/-- What the parser finds in the IP header. -/
theorem WellFormed.ipHeader (h : r.WellFormed proto) (rest : List UByte) :
    Ipv4PacketView.parsePacket (r.ipHeader ++ rest) = .ok ⟨r.ipHeader ++ rest, 0⟩ ∧
      readAt (r.ipHeader ++ rest) 0 = .ok 0x45 ∧
      Ipv4PacketView.getIpVersion ⟨r.ipHeader ++ rest, 0⟩ = .ok .IPv4 ∧
      Ipv4PacketView.getIpProtocol ⟨r.ipHeader ++ rest, 0⟩ = .ok proto ∧
      (r.ipHeader ++ rest).drop 20 = rest := by
  have hfirst := readAt_of_prefix h.version rest
  have hproto := readAt_of_prefix h.protocol rest
  refine ⟨?_, hfirst, ?_, ?_, List.drop_left' h.ip_length⟩
  · rw [Ipv4PacketView.parsePacket, hfirst]
    rfl
  · rw [Ipv4PacketView.getIpVersion, hfirst]
    rfl
  · rw [Ipv4PacketView.getIpProtocol, hproto]
    rfl

/-- A UDP packet is parsed, and it can always be printed. -/
theorem WellFormed.parsedAs_udp (h : r.WellFormed .UDP) (hlen : r.transportHeader.length = 8)
    (hsource : slice r.ipHeader 12 16 = .ok src) (hport : read16 r.transportHeader 0 = .ok srcPort) :
    ∃ response, r.ParsedAs .UDP src srcPort response := by
  obtain ⟨tail, -, hbuffer⟩ := h.exists_buffer
  obtain ⟨hip, hfirst, hversion, hproto, hdrop⟩ :=
    h.ipHeader (r.transportHeader ++ r.payload ++ tail)
  have hheader := h.ip_length
  obtain ⟨length, hlength⟩ := read16_of_lt (show 4 + 1 < r.transportHeader.length by omega)
  have hmem : r.ipHeader ++ (r.transportHeader ++ r.payload ++ tail) =
      r.ipHeader ++ r.transportHeader ++ r.payload ++ tail := by simp only [List.append_assoc]
  refine ⟨.udp ⟨receiveBuffer r.bytes, 0⟩ ⟨r.transportHeader ++ r.payload ++ tail⟩
    (28, r.bytes.length), ?_⟩
  rw [hbuffer]
  constructor
  · rw [hbuffer, FullPacketView.preParse, hfirst, ok_bind, if_pos (by decide), hip, ok_bind, hproto,
      ok_bind, if_neg (by decide), if_pos rfl, FullPacketView.ipv4Udp, hip, ok_bind]
    change Except.ok (FullPacketView.udp _ ⟨List.drop 20 _⟩ _) = _
    rw [hdrop]
    rfl
  · exact hversion
  · exact hproto
  · rw [FullPacketView.getSrcAddr, Ipv4PacketView.getSrcAddr, slice_of_prefix hsource]
    rfl
  · rw [FullPacketView.getSrcPort, UdpPacketView.getUdpSrcPort, List.append_assoc]
    exact read16_of_prefix hport _
  · rw [hbuffer, FullPacketView.getPayload, hmem]
    apply slice_append
    · rw [List.length_append, hheader, hlen]
      rfl
    · rw [bytes, List.length_append, List.length_append, hheader, hlen]
      omega
  · refine ⟨⟨bytes16 2 ++ bytes16 length⟩, ?_⟩
    rw [FullPacketView.collectProtoData, QTunnelUDPViewScheme.generateObjectBytes,
      UdpPacketView.getUdpLength, List.append_assoc, read16_of_prefix hlength]
    rfl
  · exact ⟨false, rfl⟩
  · refine ⟨fun _ hproto => absurd hproto (by decide), fun _ => ?_⟩
    have hfixed : 20 ≤ (r.ipHeader ++ (r.transportHeader ++ r.payload ++ tail)).length := by
      rw [List.length_append]
      omega
    obtain ⟨header, hudp⟩ := slice_of_le (r.transportHeader ++ r.payload ++ tail)
      (b := 0) (e := 8) (by decide) (by decide) (by simp [hlen]; omega)
    refine ⟨(), ?_⟩
    rw [FullPacketView.toPacketFriendlyView, Ipv4PacketView.ipToFriendlyView_of_le hfixed, ok_bind,
      UdpPacketView.toUdpFriendlyView, hudp]
    rfl

/-- A TCP packet is parsed, and it can be printed when all its options advance. -/
theorem WellFormed.parsedAs_tcp (h : r.WellFormed .TCP) {b : UByte}
    (hoffset : readAt r.transportHeader 12 = .ok b) (hge : 5 ≤ (b >>> 4).toNat)
    (hlen : r.transportHeader.length = 4 * (b >>> 4).toNat)
    (hsource : slice r.ipHeader 12 16 = .ok src) (hport : read16 r.transportHeader 0 = .ok srcPort) :
    ∃ response, r.ParsedAs .TCP src srcPort response := by
  obtain ⟨tail, htail, hbuffer⟩ := h.exists_buffer
  obtain ⟨hip, hfirst, hversion, hproto, hdrop⟩ :=
    h.ipHeader (r.transportHeader ++ r.payload ++ tail)
  have hheader := h.ip_length
  have hnibble := highNibble_le b
  have hpos := List.length_pos_iff.mpr htail
  have hmem : r.ipHeader ++ (r.transportHeader ++ r.payload ++ tail) =
      r.ipHeader ++ r.transportHeader ++ r.payload ++ tail := by simp only [List.append_assoc]
  have hb : readAt (r.transportHeader ++ r.payload ++ tail) 12 = .ok b := by
    rw [List.append_assoc]
    exact readAt_of_prefix hoffset _
  generalize hview : (⟨r.transportHeader ++ r.payload ++ tail, (((b >>> 4).toNat : ℤ) - 5) * 4⟩ :
    TcpPacketView) = view
  have hsize : view.tcpOptionsSize = (r.transportHeader.length : ℤ) - 20 := by
    rw [← hview]
    dsimp only
    omega
  have hrest : view.tcpHeader = r.transportHeader ++ r.payload ++ tail := by rw [← hview]
  have hroom : view.tcpHeader.length = r.transportHeader.length + r.payload.length + tail.length := by
    rw [hrest, List.length_append, List.length_append]
  have hin : view.InMemory := ⟨by omega, by omega⟩
  have hparse : TcpPacketView.parsePacket (r.transportHeader ++ r.payload ++ tail) = .ok view := by
    rw [TcpPacketView.parsePacket, hb, ← hview]
    rfl
  have hgetSize : view.getSize.toNat = r.transportHeader.length := by
    rw [TcpPacketView.getSize, toNat_ofInt, hsize]
    omega
  refine ⟨.tcp ⟨receiveBuffer r.bytes, 0⟩ view (20 + r.transportHeader.length, r.bytes.length), ?_⟩
  rw [hbuffer]
  constructor
  · rw [hbuffer, FullPacketView.preParse, hfirst, ok_bind, if_pos (by decide), hip, ok_bind, hproto,
      ok_bind, if_pos rfl, FullPacketView.ipv4Tcp, hip, ok_bind]
    change (TcpPacketView.parsePacket (List.drop 20 _) >>= _) = _
    rw [hdrop, hparse, ok_bind, hgetSize]
    rfl
  · exact hversion
  · exact hproto
  · rw [FullPacketView.getSrcAddr, Ipv4PacketView.getSrcAddr, slice_of_prefix hsource]
    rfl
  · rw [FullPacketView.getSrcPort, TcpPacketView.getTcpSrcPort, hrest, List.append_assoc]
    exact read16_of_prefix hport _
  · rw [hbuffer, FullPacketView.getPayload, hmem]
    apply slice_append
    · rw [List.length_append, hheader]
      omega
    · rw [bytes, List.length_append, List.length_append, hheader]
      omega
  · obtain ⟨scheme, hscheme⟩ := hin.generateObjectBytes
    have hagain := TcpPacketView.toView_of_parsed hparse
    exact ⟨⟨scheme⟩, by rw [FullPacketView.collectProtoData, hagain, ok_bind, hscheme]; rfl⟩
  · exact hin.isResetConnectionPacket
  · have hmemory : r.optionMemory = view.tcpHeader.drop 20 := by
      rw [optionMemory, hbuffer, hrest, show (40 : ℕ) = 20 + 20 from rfl, ← List.drop_drop, hdrop]
    have hwalk := hin.toTcpFriendlyView_ok_iff (by omega) (by omega)
    have hcount : view.tcpOptionsSize.toNat = r.transportHeader.length - 20 := by omega
    rw [hcount, ← hmemory] at hwalk
    have hfixed : 20 ≤ (r.ipHeader ++ (r.transportHeader ++ r.payload ++ tail)).length := by
      rw [List.length_append]
      omega
    have hprint : (FullPacketView.tcp ⟨r.ipHeader ++ (r.transportHeader ++ r.payload ++ tail), 0⟩ view
        (20 + r.transportHeader.length, r.bytes.length)).toPacketFriendlyView =
        view.toTcpFriendlyView >>= fun _ => .ok () := by
      rw [FullPacketView.toPacketFriendlyView, Ipv4PacketView.ipToFriendlyView_of_le hfixed]
      rfl
    rw [hprint, OptionsAdvance]
    constructor
    · rintro ⟨_, hu⟩ _
      obtain ⟨options, hoptions, -⟩ := bind_eq_ok_iff.mp hu
      exact hwalk.mp ⟨options, hoptions⟩
    · intro hadvance
      obtain ⟨options, hoptions⟩ := hwalk.mpr (hadvance rfl)
      exact ⟨(), by rw [hoptions]; rfl⟩

/-- Every well-formed packet is parsed. -/
theorem WellFormed.parsedAs (h : r.WellFormed proto) (hsource : slice r.ipHeader 12 16 = .ok src)
    (hport : read16 r.transportHeader 0 = .ok srcPort) :
    ∃ response, r.ParsedAs proto src srcPort response := by
  rcases h.transport with ⟨rfl, hlen⟩ | ⟨rfl, b, hoffset, hge, hlen⟩
  · exact h.parsedAs_udp hlen hsource hport
  · exact h.parsedAs_tcp hoffset hge hlen hsource hport

end Reply

/-- Without a failing send, all records of a packet are handed over. -/
theorem sendRecords_all (packet : SplittedPacket) (indices : List ℕ) :
    sendRecords packet (fun _ => true) indices = indices.mapM packet.getRawPacket := by
  induction indices with
  | nil => rfl
  | cons i indices ih =>
    rw [sendRecords, List.mapM_cons, ih]
    rfl

/-- An answer through the server's response loop and the client's decoder. -/
def natReply (m peer : QVPNPacketManager) (key : QVPNServerSocketData) (r : Reply) :
    Except Fault (List (Option QTunnelData)) := do
  let (records, _, _) ← vpnResponseLoopIteration defaultLayers m (fun _ => true) key
    (receiveBuffer r.bytes) r.bytes.length
  let (packets, _) ← decodeRecords defaultLayers peer records
  return packets

/-- The server sends an answer as one record, with the client's address of the connection. -/
theorem vpnResponseLoopIteration_reply {m : QVPNPacketManager} (key : QVPNServerSocketData)
    {r : Reply} {proto : TransportProtocol} {src : List UByte} {srcPort : UShort}
    (hm : m.DefaultConfig) (hclient : key.clientLocalAddr.ip.length = 4) (hr : r.WellFormed proto)
    (hsource : slice r.ipHeader 12 16 = .ok src) (hport : read16 r.transportHeader 0 = .ok srcPort)
    (hadvance : r.OptionsAdvance proto) :
    ∃ proxy reset, proxy.Valid ∧ (∃ protoData, proxy = ⟨.IPv4, proto, ⟨src⟩, srcPort,
        key.clientLocalAddr, key.localPort, protoData⟩) ∧
      vpnResponseLoopIteration defaultLayers m (fun _ => true) key (receiveBuffer r.bytes)
        r.bytes.length = .ok ([wholeRecord m.lastPacketId proxy r.payload], reset,
          m.nextPacketId) := by
  obtain ⟨response, hparsed⟩ := hr.parsedAs hsource hport
  obtain ⟨protoData, hcollect⟩ := hparsed.collect
  obtain ⟨reset, hreset⟩ := hparsed.reset
  obtain ⟨⟨⟩, hprint⟩ := hparsed.print.mpr hadvance
  have hlen := slice_length hsource
  have hcollected : protoData.Collected := ⟨_, _, response, hparsed.parse, hcollect⟩
  have hvalid : QTunnelProxy.Valid ⟨.IPv4, proto, ⟨src⟩, srcPort, key.clientLocalAddr, key.localPort,
      protoData⟩ :=
    ⟨Or.inl ⟨rfl, by dsimp only; omega, hclient⟩, hcollected.wellFormed.1, hcollected.wellFormed.2⟩
  obtain ⟨split, hencode, hrecords⟩ := encodeData_records hm hvalid (Or.inl hr.payload_lt)
  rw [packetRecords, if_pos hr.payload_lt] at hrecords
  have hsend : encodeAndSend defaultLayers m (fun _ => true) ⟨.IPv4, proto, ⟨src⟩, srcPort,
      key.clientLocalAddr, key.localPort, protoData⟩ r.payload = .ok ([wholeRecord m.lastPacketId
        ⟨.IPv4, proto, ⟨src⟩, srcPort, key.clientLocalAddr, key.localPort, protoData⟩ r.payload],
          m.nextPacketId) := by
    rw [encodeAndSend, hencode, ok_bind]
    dsimp only
    rw [sendRecords_all, ← SplittedPacket.records, hrecords]
    rfl
  refine ⟨_, reset, hvalid, ⟨protoData, rfl⟩, ?_⟩
  rw [vpnResponseLoopIteration, hparsed.parse, ok_bind, hprint, ok_bind, hcollect, ok_bind,
    hparsed.version, ok_bind, hparsed.transport, ok_bind, hparsed.source, ok_bind, hparsed.sourcePort,
    ok_bind, hparsed.payload, ok_bind, hsend, ok_bind]
  dsimp only
  rw [hreset, ok_bind]
  rfl

/-- What arrives has the addresses of the connection exchanged. -/
theorem natReply_eq {m peer : QVPNPacketManager} (key : QVPNServerSocketData) {r : Reply}
    {proto : TransportProtocol} {src : List UByte} {srcPort : UShort} (hm : m.DefaultConfig)
    (hpeer : peer.Settled) (hid : peer.packets m.lastPacketId = none)
    (hclient : key.clientLocalAddr.ip.length = 4) (hr : r.WellFormed proto)
    (hsource : slice r.ipHeader 12 16 = .ok src) (hport : read16 r.transportHeader 0 = .ok srcPort)
    (hadvance : r.OptionsAdvance proto) :
    ∃ protoData, natReply m peer key r = .ok [some ⟨⟨.IPv4, proto, ⟨src⟩, srcPort,
      key.clientLocalAddr, key.localPort, protoData⟩, r.payload⟩] := by
  obtain ⟨proxy, reset, hvalid, ⟨protoData, rfl⟩, hresponse⟩ :=
    vpnResponseLoopIteration_reply key hm hclient hr hsource hport hadvance
  refine ⟨protoData, ?_⟩
  rw [natReply, hresponse, ok_bind]
  dsimp only
  rw [decodeRecords, decodeData_wholeRecord hvalid hr.payload_lt hpeer hid]
  rfl

/-- Nothing arrives of a packet whose print does not end. -/
theorem Reply.OptionsAdvance.of_natReply {m peer : QVPNPacketManager} {key : QVPNServerSocketData}
    {r : Reply} {proto : TransportProtocol} {src : List UByte} {srcPort : UShort}
    {packets : List (Option QTunnelData)} (hr : r.WellFormed proto)
    (hsource : slice r.ipHeader 12 16 = .ok src) (hport : read16 r.transportHeader 0 = .ok srcPort)
    (h : natReply m peer key r = .ok packets) : r.OptionsAdvance proto := by
  obtain ⟨response, hparsed⟩ := hr.parsedAs hsource hport
  obtain ⟨result, hresult, -⟩ := bind_eq_ok_iff.mp h
  obtain ⟨response', hparse, hresult⟩ := bind_eq_ok_iff.mp hresult
  cases Except.ok.inj (hparsed.parse.symm.trans hparse)
  obtain ⟨u, hprint, -⟩ := bind_eq_ok_iff.mp hresult
  exact hparsed.print.mp ⟨u, hprint⟩

/-- The addresses a forwarded packet carries: the server's in place of the client's. -/
structure Translated (request : QTunnelData) (send : ForwardedPacket) : Prop where
  source : slice send.bytes 12 16 = send.key.serverLocalAddr.toIpv4
  sourcePort : read16 send.bytes 20 = .ok request.sourcePort
  destination : slice send.bytes 16 20 = request.dstAddr.toIpv4
  destinationPort : read16 send.bytes 22 = .ok request.dstPort

/-- The packet the client gets back for a request. -/
structure ReturnsTo (request : QTunnelData) (r : Reply) (packet : QTunnelData) : Prop where
  netProtocol : packet.netProtocol = request.netProtocol
  transportProtocol : packet.transportProtocol = request.transportProtocol
  source : packet.sourceAddr = request.dstAddr ∧ packet.sourcePort = request.dstPort
  destination : packet.dstAddr = request.sourceAddr ∧ packet.dstPort = request.sourcePort
  payload : packet.data = r.payload

/-- The key of a forwarded packet is the request's, with some address of the server, and the
packet is translated. -/
theorem Connections.Carries.translated {c : Connections} {request : QTunnelData}
    {send : ForwardedPacket} (h : c.Carries request send) (hnet : request.netProtocol = .IPv4)
    (htransport : request.transportProtocol = .TCP ∨ request.transportProtocol = .UDP) :
    Translated request send := by
  obtain ⟨strategy, object, strategy', hgenerate, hbytes⟩ := h.bytes
  obtain ⟨addr, hkey⟩ := h.key
  have hlocal : send.key.localPort = request.sourcePort := by rw [hkey]; rfl
  obtain ⟨mid, src, dst, rest, hmid, hsrc, hdst, hform⟩ :=
    generateSenderPacket_addrs hnet htransport hgenerate
  have hs := NetAddr.toIpv4_length hsrc
  have hd := NetAddr.toIpv4_length hdst
  rw [hlocal] at hform
  have hfront : ([0x45] ++ mid ++ src ++ dst : List UByte).length = 20 := by simp [hmid, hs, hd]
  have hports : ([0x45] ++ mid ++ src ++ dst ++ bytes16 request.sourcePort : List UByte).length = 22 := by
    simp [hmid, hs, hd]
  rw [← hbytes] at hform
  refine ⟨?_, ?_, ?_, ?_⟩
  · rw [hsrc, hform]
    have h := slice_append ([0x45] ++ mid) src (dst ++ (bytes16 request.sourcePort ++
      bytes16 request.dstPort ++ rest)) 12 16 (by simp [hmid]) (by simp [hmid, hs])
    simpa only [List.append_assoc] using h
  · have h := read16_append ([0x45] ++ mid ++ src ++ dst) request.sourcePort
      (bytes16 request.dstPort ++ rest)
    rw [hfront] at h
    rw [hform]
    simpa only [List.append_assoc] using h
  · change request.dstAddr.toIpv4 = .ok dst at hdst
    rw [hdst, hform]
    have h := slice_append ([0x45] ++ mid ++ src) dst (bytes16 request.sourcePort ++
      bytes16 request.dstPort ++ rest) 16 20 (by simp [hmid, hs]) (by simp [hmid, hs, hd])
    simpa only [List.append_assoc] using h
  · have h := read16_append ([0x45] ++ mid ++ src ++ dst ++ bytes16 request.sourcePort)
      request.dstPort rest
    rw [hports] at h
    rw [hform]
    simpa only [List.append_assoc] using h

/-- For every request that the server decodes, keys and forwards, and every answer to the
forwarded packet, the client decodes the answer with the request's protocol, from where the
request went, to where it came from, and with the answer's payload, exactly when the print of
the answer visits no option of length zero. -/
theorem natRoundTrip_iff {client server peer m : QVPNPacketManager} {s s' : RequestState}
    {request : QTunnelData} {split : SplittedPacket} {record : List UByte} {fd : Fd}
    {net : RequestOutcome} {exit : Option Bool} {send : ForwardedPacket} {r : Reply}
    (hrequest : request.Unsplit) (hnet : request.netProtocol = .IPv4)
    (htransport : request.transportProtocol = .TCP ∨ request.transportProtocol = .UDP)
    (hclient : client.DefaultConfig)
    (hencode : encodeData defaultLayers client request.toQTunnelProxy request.data =
      .ok (split, m)) (hrecord : split.records = .ok [record])
    (hmanager : s.manager.Settled) (hfree : s.manager.packets client.lastPacketId = none)
    (hround : RequestState.requestRound defaultLayers fd net s record = .ok (exit, s'))
    (hsend : s'.connections.sends = s.connections.sends ++ [send])
    (hreply : r.Answers request send.bytes)
    (hserver : server.DefaultConfig) (hpeer : peer.Settled)
    (hpeerFree : peer.packets server.lastPacketId = none) :
    Translated request send ∧
      ((∃ packet, natReply server peer send.key r = .ok [some packet] ∧
        ReturnsTo request r packet) ↔ r.OptionsAdvance request.transportProtocol) := by
  have hdecode : decodeData defaultLayers s.manager record = .ok (some request, s.manager) := by
    obtain ⟨split', hencode', hrecords'⟩ :=
      encodeData_records hclient hrequest.sendable.valid (Or.inl hrequest.size)
    cases Except.ok.inj (hencode.symm.trans hencode')
    rw [packetRecords, if_pos hrequest.size] at hrecords'
    cases Except.ok.inj (hrecord.symm.trans hrecords')
    exact decodeData_wholeRecord hrequest.sendable.valid hrequest.size hmanager hfree
  have hcarries := RequestState.requestRound_carries hdecode hround hsend
  refine ⟨hcarries.translated hnet htransport, ?_⟩
  obtain ⟨addr, hkey⟩ := hcarries.key
  have haddrs : request.sourceAddr.ip.length = 4 := by
    rcases hrequest.addrs with ⟨-, hsrc, -⟩ | ⟨hsix, -, -⟩
    · exact hsrc
    · rw [hnet] at hsix
      exact absurd hsix (by decide)
  constructor
  · rintro ⟨packet, hpacket, _⟩
    exact Reply.OptionsAdvance.of_natReply hreply.wellFormed hreply.source hreply.sourcePort hpacket
  · intro hadvance
    obtain ⟨protoData, hback⟩ := natReply_eq send.key hserver hpeer hpeerFree
      (by rw [hkey]; exact haddrs) hreply.wellFormed hreply.source hreply.sourcePort hadvance
    exact ⟨_, hback, hnet.symm, rfl, ⟨rfl, rfl⟩, ⟨by rw [hkey]; rfl, by rw [hkey]; rfl⟩, rfl⟩

/-- The query as the server sends it. -/
def querySend : ForwardedPacket where
  packet := query
  key := ⟨.IPv4, .UDP, ⟨[10, 0, 0, 2]⟩, ⟨[192, 168, 0, 1]⟩, 4000, ⟨[8, 8, 8, 8]⟩, 53⟩
  rawSocket := 7
  bytes := [0x45, 0, 0, 62, 0, 0, 0x40, 0, 64, 17, 105, 246, 192, 168, 0, 1, 8, 8, 8, 8,
    15, 160, 0, 53, 0, 10, 24, 35, 7, 9]

/-- An answer to the query. -/
def queryReply : Reply where
  ipHeader := [0x45, 0, 0, 31, 0, 0, 0x40, 0, 60, 17, 0, 0, 8, 8, 8, 8, 192, 168, 0, 1]
  transportHeader := [0, 53, 15, 160, 0, 11, 0, 0]
  payload := [1, 2, 3]

theorem queryReply_answers : queryReply.Answers query querySend.bytes where
  wellFormed := ⟨rfl, rfl, rfl, Or.inl ⟨rfl, rfl⟩, by decide⟩
  source := rfl
  sourcePort := rfl
  destination := rfl
  destinationPort := rfl

/-- The query and its answer. -/
theorem natRoundTrip_iff_query : Translated query querySend ∧
    ((∃ packet, natReply (initial .increasing) (initial .increasing) querySend.key queryReply =
        .ok [some packet] ∧ ReturnsTo query queryReply packet) ↔
      queryReply.OptionsAdvance .UDP) ∧ queryReply.OptionsAdvance .UDP :=
  have h := natRoundTrip_iff query_unsplit rfl (Or.inr rfl) (initial_defaultConfig .increasing)
    rfl rfl ((initial_empty .increasing).settled rfl) rfl
    (show RequestState.requestRound defaultLayers 5 RequestState.connected RequestState.fresh
      RequestState.queryRecord = .ok (none, _) from rfl) rfl queryReply_answers
    (initial_defaultConfig .increasing) ((initial_empty .increasing).settled rfl) rfl
  ⟨h.1, h.2, fun hproto => nomatch hproto⟩

/-- A TCP connection request, as it is captured. -/
def capturedSyn : List UByte :=
  [0x45, 0, 0, 40, 0, 0, 0x40, 0, 64, 6, 0, 0, 10, 0, 0, 2, 93, 184, 216, 34,
    15, 160, 0, 80, 0, 0, 0, 1, 0, 0, 0, 0, 0x50, 2, 4, 0, 0, 0, 0, 0]

/-- The connection request as it is encoded. -/
def syn : QTunnelData where
  netProtocol := .IPv4
  transportProtocol := .TCP
  sourceAddr := ⟨[10, 0, 0, 2]⟩
  sourcePort := 4000
  dstAddr := ⟨[93, 184, 216, 34]⟩
  dstPort := 80
  protoData := ⟨[0, 15, 0, 0, 0, 1, 0, 0, 0, 0, 0, 2, 5, 4, 0, 0, 0]⟩
  data := []

theorem syn_unsplit : syn.Unsplit where
  addrs := Or.inl (by decide)
  proto := ⟨capturedSyn, 40, .tcp ⟨capturedSyn, 0⟩ ⟨capturedSyn.drop 20, 0⟩ (40, 40), rfl, rfl⟩
  size := by decide

def synRecord : List UByte := wholeRecord 0 syn.toQTunnelProxy syn.data

/-- The connection request as the server sends it. -/
def synSend : ForwardedPacket where
  packet := syn
  key := ⟨.IPv4, .TCP, ⟨[10, 0, 0, 2]⟩, ⟨[192, 168, 0, 1]⟩, 4000, ⟨[93, 184, 216, 34]⟩, 80⟩
  rawSocket := 7
  bytes := [0x45, 0, 0, 40, 0, 0, 0x40, 0, 64, 6, 68, 76, 192, 168, 0, 1, 93, 184, 216, 34,
    15, 160, 0, 80, 0, 0, 0, 1, 0, 0, 0, 0, 0x50, 2, 4, 0, 165, 109, 0, 0]

/-- An answer whose only option, of kind 2, has the length zero. -/
def zeroOptionReply : Reply where
  ipHeader := [0x45, 0, 0, 44, 0, 0, 0x40, 0, 60, 6, 0, 0, 93, 184, 216, 34, 192, 168, 0, 1]
  transportHeader := [0, 80, 15, 160, 0, 0, 0, 9, 0, 0, 0, 2, 0x60, 0x12, 4, 0, 0, 0, 0, 0, 2, 0, 0, 0]
  payload := []

/-- The server never gets past the print of that answer. -/
theorem zeroOption_notReturned :
    syn.Unsplit ∧
    (∃ split m, encodeData defaultLayers (initial .increasing) syn.toQTunnelProxy syn.data =
      .ok (split, m) ∧ split.records = .ok [synRecord]) ∧
    (∃ s', RequestState.requestRound defaultLayers 5 RequestState.connected RequestState.fresh
      synRecord = .ok (none, s') ∧
        s'.connections.sends = RequestState.fresh.connections.sends ++ [synSend]) ∧
    zeroOptionReply.Answers syn synSend.bytes ∧
    ¬ ∃ packets, natReply (initial .increasing) (initial .increasing) synSend.key zeroOptionReply =
      .ok packets := by
  have hwellFormed : zeroOptionReply.WellFormed .TCP :=
    ⟨rfl, rfl, rfl, Or.inr ⟨rfl, 0x60, rfl, by decide, rfl⟩, by decide⟩
  refine ⟨syn_unsplit, ⟨_, _, rfl, rfl⟩, ⟨_, rfl, rfl⟩, ⟨hwellFormed, rfl, rfl, rfl, rfl⟩, ?_⟩
  rintro ⟨packets, h⟩
  have hadvance := Reply.OptionsAdvance.of_natReply hwellFormed
    (show slice _ 12 16 = .ok [93, 184, 216, 34] from rfl) (show read16 _ 0 = .ok 80 from rfl) h
  have hzero : TcpOptionsView.getNextOptionOffset zeroOptionReply.optionMemory 0 = .ok 0 := rfl
  exact hadvance rfl 0 (.here 0) (by decide) hzero

end QVPN
