import QVPN.Properties.ForwardPath

/-!
# From a remote host to the injected packet

The server takes up what remote hosts answer and sends each answer through the tunnel, addressed to
the client of the connection. The client captures the segments that the records arrive in and makes
a new packet of each record, in the shape of the segment. What is handed to the driver, behind the
helper that calculates checksums, is the packet of the remote host with the client's address and port,
and both checksums verify; only the number of bytes that is passed along is a constant.
-/

namespace QVPN

open BigEndian Checksum Memory QVPNLayersSettings QVPNPacketManager

/-- The walk over the options can step over each of them, and needs nothing behind the packet. -/
def Datagram.OptionsReadable (d : Datagram) : Prop :=
  TcpOptionsView.OptionsReadable (d.transport.drop 20 ++ d.payload) (d.transport.length - 20) 0

/-- A packet of a remote host that the server takes up on a connection, and the id it gets. -/
structure Response where
  id : UByte
  key : QVPNServerSocketData
  reply : Datagram

namespace Response

/-- The packet as it goes through the tunnel: to where the client sent from. -/
def returned (r : Response) : QTunnelData :=
  { r.reply.tunnelled with dstAddr := r.key.clientLocalAddr, dstPort := r.key.localPort }

/-- The record that it goes through the tunnel in. -/
def record (r : Response) : List UByte :=
  wholeRecord r.id r.returned.toQTunnelProxy r.returned.data

/-- The transport header that the client injects: what the tunnel makes of the header, with the
port of the client. -/
def injectedTransport (r : Response) (check : UShort) : List UByte :=
  (r.reply.forwardedTransport check).take 2 ++ bytes16 r.key.localPort ++
    (r.reply.forwardedTransport check).drop 4

/-- A packet that fits one record, on a connection of an IPv4 client. -/
structure Fits (r : Response) : Prop where
  reply : r.reply.WellFormed
  readable : r.reply.OptionsReadable
  size : r.reply.payload.length < 65229
  client : r.key.clientLocalAddr.ip.length = 4

/-- Such a packet that carries TCP. -/
structure WellFormed (r : Response) : Prop extends r.Fits where
  tcp : r.reply.proto = .TCP

end Response

/-- What the server sends to the client for the packets that it takes up. The manager also numbers
the packets of other clients, so each packet has any id. -/
def respond (m : QVPNPacketManager) : List Response → Except Fault (List (List UByte))
  | [] => .ok []
  | r :: later => do
    let (records, _, _) ← vpnResponseLoopIteration defaultLayers { m with lastPacketId := r.id }
      (fun _ => true) r.key (receiveBuffer r.reply.bytes) r.reply.bytes.length
    let rest ← respond m later
    return records ++ rest

/-- The client's capture loop over captured segments. -/
def incomingCaptures (calcChecksums : List UByte → List UByte) (sizeofView : ℕ)
    (m : QVPNPacketManager) :
    List Captured → Except Fault (List (Option WinDivertSend) × QVPNPacketManager)
  | [] => .ok ([], m)
  | c :: later => do
    let (send, m) ← incomingCapture calcChecksums sizeofView defaultLayers m c.mem c.size
    let (rest, m) ← incomingCaptures calcChecksums sizeofView m later
    return (send :: rest, m)

/-- A captured segment that a record arrives in. -/
structure Carrier (c : Captured) (record : List UByte) : Prop where
  segment : ∃ (d : Datagram) (behind : List UByte), c.Holds d behind ∧ d.WellFormed ∧
    d.proto = .TCP ∧ d.OptionsAdvance behind ∧ d.payload = record

/-- What is handed to the driver for a response: a complete packet that carries the response, and how
many bytes of it are sent. -/
def Returns (sizeofView : ℕ) (r : Response) (send : WinDivertSend) : Prop :=
  ∃ net check, send = ⟨net ++ r.injectedTransport check ++ r.reply.payload, sizeofView⟩ ∧
    IsReinjectedTcp r.returned.toQTunnelProxy net (r.injectedTransport check) r.reply.payload

namespace TcpOptionsView

/-- An option that can be stepped over is the same in longer memory. -/
theorem getNextOptionOffset_append_left {mem : List UByte} {i : ℕ} {length : UShort}
    (h : getNextOptionOffset mem i = .ok length) (behind : List UByte) :
    getNextOptionOffset (mem ++ behind) i = .ok length := by
  unfold getNextOptionOffset at h ⊢
  obtain ⟨kind, hkind, h⟩ := bind_eq_ok_iff.mp h
  rw [ readAt_of_prefix hkind, ok_bind]
  split at h
  · next hshort => rw [if_pos hshort, h]
  · next hlong =>
    obtain ⟨b, hb, h⟩ := bind_eq_ok_iff.mp h
    rw [if_neg hlong, readAt_of_prefix hb, ok_bind, h]

/-- A walk that needs nothing behind the options does not change when something is there. -/
theorem OptionsReadable.advance {mem : List UByte} {size i : ℕ} (h : OptionsReadable mem size i)
    (behind : List UByte) : OptionsAdvance (mem ++ behind) size i := by
  intro j hj
  induction hj with
  | here i =>
    intro hlt hzero
    obtain ⟨length, hlength, hpos⟩ := h i (.here i) hlt
    rw [getNextOptionOffset_append_left hlength] at hzero
    exact hpos (Except.ok.inj hzero)
  | next hi hlength _ ih =>
    obtain ⟨length', hlength', -⟩ := h _ (.here _) hi
    cases Except.ok.inj (hlength.symm.trans (getNextOptionOffset_append_left hlength' behind))
    exact ih fun k hk => h k (.next hi hlength' hk)

end TcpOptionsView

/-- A packet that can be printed on its own can be printed in a buffer. -/
theorem Datagram.OptionsReadable.advance {d : Datagram} (hd : d.WellFormed) (h : d.OptionsReadable)
    (behind : List UByte) : d.OptionsAdvance behind := by
  intro htcp
  have hge := (hd.layout htcp).offset_ge
  have hlength := (hd.layout htcp).length_eq
  rw [List.drop_append_of_le_length (by omega), ← List.append_assoc]
  exact TcpOptionsView.OptionsReadable.advance h behind

/-- A packet of one record is handed to the socket, whether the send succeeds or not. -/
theorem sendRecords_single {packet : SplittedPacket} {record : List UByte}
    (h : packet.records = .ok [record]) (sent : ℕ → Bool) :
    sendRecords packet sent (List.range packet.size) = .ok [record] := by
  have hsize : packet.size = 1 := by
    have hlength := mapM_length h
    rw [List.length_range] at hlength
    exact hlength.symm
  have hfirst : (List.range packet.size)[0]? = some 0 := by
    rw [hsize]
    rfl
  obtain ⟨_, hrecord, hread⟩ := mapM_getElem? h hfirst
  cases hrecord
  rw [hsize]
  change sendRecords packet sent [0] = _
  rw [sendRecords, hread, ok_bind]
  split
  · rfl
  · rfl

namespace Response.Fits

variable {r : Response} (h : r.Fits)
include h

theorem returned_sendable : r.returned.Sendable := by
  have hsend := h.reply.sendable (Or.inl h.size)
  refine ⟨Or.inl ⟨rfl, ?_, h.client⟩, hsend.proto, Or.inl h.size⟩
  obtain ⟨-, hsrc, -⟩ | ⟨hsix, -⟩ := hsend.addrs
  · exact hsrc
  · cases hsix

/-- The server sends a packet that it takes up as one record. -/
theorem respond_one {m : QVPNPacketManager} (hm : m.DefaultConfig) (hid : m.lastPacketId = r.id)
    (sent : ℕ → Bool) :
    vpnResponseLoopIteration defaultLayers m sent r.key (receiveBuffer r.reply.bytes)
      r.reply.bytes.length = .ok ([r.record], r.reply.resets, m.nextPacketId) := by
  have hd := h.reply
  have htotal := hd.packet.total_le
  have hbytes : r.reply.bytes.length ≤ 65535 := by
    rw [Datagram.bytes, List.length_append, List.length_append]
    exact htotal
  have hzeros : List.replicate (65536 - r.reply.bytes.length) (0 : UByte) ≠ [] := by
    apply List.ne_nil_of_length_pos
    rw [List.length_replicate]
    omega
  obtain ⟨view, hview, hprint⟩ := hd.seenAs hzeros
  obtain ⟨⟨⟩, hprinted⟩ := hprint.mpr (h.readable.advance hd _)
  obtain ⟨split, hencode, hrecords⟩ := encodeData_records hm h.returned_sendable.valid
    (Or.inl h.size)
  rw [packetRecords, if_pos h.size, hid] at hrecords
  have hsend : QVPN.encodeAndSend defaultLayers m sent
      ⟨.IPv4, r.reply.proto, r.reply.tunnelled.sourceAddr, r.reply.tunnelled.sourcePort,
        r.key.clientLocalAddr, r.key.localPort, r.reply.tunnelled.protoData⟩ r.reply.payload =
      .ok ([r.record], m.nextPacketId) := by
    rw [QVPN.encodeAndSend]
    change (encodeData _ _ r.returned.toQTunnelProxy _ >>= _) = _
    rw [hencode, ok_bind]
    dsimp only
    rw [sendRecords_single hrecords]
    rfl
  rw [vpnResponseLoopIteration, receiveBuffer, hview.parse, ok_bind, hprinted, ok_bind,
    hview.collect, ok_bind, hview.version, ok_bind, hview.transport, ok_bind, hview.source, ok_bind,
    hview.sourcePort, ok_bind, hview.payload, ok_bind, hsend, ok_bind]
  dsimp only
  rw [hview.reset]
  rfl

end Response.Fits

/-- The server sends a record for each packet that it takes up. -/
theorem respond_eq {m : QVPNPacketManager} (hm : m.DefaultConfig) {responses : List Response}
    (h : ∀ r ∈ responses, r.WellFormed) :
    respond m responses = .ok (responses.map Response.record) := by
  induction responses with
  | nil => rfl
  | cons r responses ih =>
    have hconfig : DefaultConfig { m with lastPacketId := r.id } := ⟨hm.max_size, hm.split_size⟩
    rw [respond, (h r (List.mem_cons_self ..)).respond_one hconfig rfl, ok_bind]
    dsimp only
    rw [ih fun other hother => h other (List.mem_cons_of_mem _ hother)]
    rfl

/-- What the client looks at of a captured segment, in the buffer that it is captured to. -/
theorem Datagram.WellFormed.segment_front {e : Datagram} (he : e.WellFormed) (htcp : e.proto = .TCP)
    (behind : List UByte) : 20 ≤ (e.bytes ++ behind).length ∧
      declaredWords (e.bytes ++ behind) = 5 ∧
      (e.bytes ++ behind).getD 0 0 >>> 4 = NetProtocol.IPv4.val ∧
      (e.bytes ++ behind).getD 9 0 = TransportProtocol.TCP.val := by
  have hnet := he.net_length
  have hbytes : e.bytes ++ behind = e.net ++ (e.transport ++ e.payload ++ behind) := by
    simp only [Datagram.bytes, List.append_assoc]
  have hget (i : ℕ) (hi : i < 20) : (e.bytes ++ behind).getD i 0 = e.net.getD i 0 := by
    rw [hbytes, List.getD_append _ _ _ _ (by omega)]
  refine ⟨?_, ?_, ?_, ?_⟩
  · rw [hbytes, List.length_append]
    omega
  · rw [declaredWords, hget 0 (by decide)]
    exact he.plain
  · rw [hget 0 (by decide), he.packet.version]
  · rw [hget 9 (by decide), he.packet.protocol, htcp]

section Injected

variable {calcChecksums : List UByte → List UByte} (sizeofView : ℕ)

/-- What is injected for a decoded packet, from the views over its assembled bytes. -/
theorem injectDecoded_send {package view : FullPacketView} {decoded : QTunnelData}
    {bytes : List UByte} {send : WinDivertSend} (hvalid : decoded.checkValidity = true)
    (hbytes : package.newPacketBytesByThis decoded.toQTunnelProxy decoded.data = .ok bytes)
    (hview : FullPacketView.preParse bytes bytes.length = .ok view)
    (hwhole : view.bytes bytes = .ok bytes)
    (h : injectDecoded calcChecksums sizeofView package decoded = .ok (some send)) :
    send = ⟨calcChecksums bytes, sizeofView⟩ := by
  rw [injectDecoded_eq calcChecksums sizeofView hvalid hbytes hview hwhole] at h
  obtain ⟨_, -, h⟩ := bind_eq_ok_iff.mp h
  obtain ⟨_, -, h⟩ := bind_eq_ok_iff.mp h
  exact (Option.some.inj (Except.ok.inj h)).symm

variable {r : Response} (h : r.WellFormed)
include h

/-- The TCP header that the client makes for a response. -/
theorem tcpFields_returned (check : UShort) :
    r.returned.tcpFields.header check = r.injectedTransport check := by
  rw [Response.injectedTransport, ← tcpFields_tunnelled h.reply h.tcp]
  rfl

/-- Its options are those of the packet. -/
theorem tcpOptions_returned : r.returned.tcpFields.options = r.reply.transport.drop 20 := by
  have hge := (h.reply.layout h.tcp).offset_ge
  have hlength := (h.reply.layout h.tcp).length_eq
  have hfixed : (r.reply.transport.take 20).length = 20 := List.length_take_of_le (by omega)
  have hoptions : r.returned.tcpFields.options = (r.reply.forwardedTransport 0).drop 20 := by
    rw [← tcpFields_tunnelled h.reply h.tcp]
    rfl
  obtain ⟨b0, b1, b2, b3, b4, b5, b6, b7, b8, b9, b10, b11, b12, b13, b14, b15, b16, b17, b18, b19,
    hbytes⟩ := exists_twentyBytes hfixed
  have htransport := List.take_append_drop 20 r.reply.transport
  rw [hbytes] at htransport
  rw [hoptions, Datagram.forwardedTransport, if_pos h.tcp, ← htransport]
  rfl

/-- A response passes the check of the client, and its addresses are those of IPv4. -/
theorem returned_valid : r.returned.checkValidity = true ∧
    r.returned.sourceAddr.ip.length = 4 ∧ r.returned.dstAddr.ip.length = 4 := by
  refine ⟨?_, ?_, h.client⟩
  · rw [QTunnelProxy.checkValidity, decide_eq_true_iff]
    exact ⟨rfl, Or.inl h.tcp⟩
  · obtain ⟨-, hsrc, -⟩ | ⟨hsix, -⟩ := h.returned_sendable.addrs
    · exact hsrc
    · cases hsix

/-- The packet that the client makes for a response, before the helper has seen it, is a complete one
that carries the response. -/
theorem exists_assembled {e : Datagram} (he : e.WellFormed) (htcp : e.proto = .TCP)
    (behind : List UByte) : ∃ net check view,
      (e.tcpView behind).newPacketBytesByThis r.returned.toQTunnelProxy r.returned.data =
        .ok (net ++ r.returned.tcpFields.header check ++ r.returned.data) ∧
      FullPacketView.preParse (net ++ r.returned.tcpFields.header check ++ r.returned.data)
        (net ++ r.returned.tcpFields.header check ++ r.returned.data).length = .ok view ∧
      view.bytes (net ++ r.returned.tcpFields.header check ++ r.returned.data) =
        .ok (net ++ r.returned.tcpFields.header check ++ r.returned.data) ∧
      declaredWords net = 5 ∧ IsReinjectedTcp r.returned.toQTunnelProxy net
        (r.returned.tcpFields.header check) r.returned.data := by
  obtain ⟨hmem, hwords, hversion, hprotocol⟩ := he.segment_front htcp behind
  obtain ⟨-, hsrc, hdst⟩ := returned_valid h
  obtain ⟨hfills, hcount⟩ := tunnelled_fillsTcp h.reply h.tcp
  have hfills : r.returned.protoData.FillsTcp := hfills
  have hheader : (r.returned.tcpFields.header 0).length = r.reply.transport.length := by
    rw [(hfills.reads.complete.layout 0).length_eq, ← hcount]
    exact congrArg (4 * ·) r.returned.tcpFields_words
  have htotal := h.reply.packet.total_le
  have hnetLength := h.reply.net_length
  have hreinjected := QTunnelProxy.isReinjectedTcp hversion hprotocol hwords hsrc hdst hfills
    r.returned.data (by rw [hheader]; change _ + r.reply.payload.length ≤ _; omega)
  have hnew := FullPacketView.newPacketByThis_tcp hmem hwords hsrc hdst hfills.reads
    ⟨e.transport ++ (e.payload ++ behind), (e.transport.length : ℤ) - 20⟩
    (20 + e.transport.length, e.bytes.length) r.returned.data
  obtain ⟨hlayout, hfive, hfirst, hninth⟩ := carrierFields_stamped hwords
    (UInt16.ofNat (20 + (r.returned.tcpFields.header 0).length + r.returned.data.length)) hsrc
    hdst
  generalize newChecksum (carrierFields (e.bytes ++ behind)) r.returned.toQTunnelProxy
    (r.returned.tcpFields.header 0) r.returned.data 16 = check at hnew hreinjected
  generalize (carrierFields (e.bytes ++ behind)).stamped (UInt16.ofNat (20 +
    (r.returned.tcpFields.header 0).length + r.returned.data.length)) r.returned.sourceAddr.ip
      r.returned.dstAddr.ip = net at hnew hreinjected hlayout hfive hfirst hninth
  have hparse := FullPacketView.preParse_plain hlayout hfive (by rw [hfirst, hversion])
    (by rw [hninth, hprotocol]) (.inl rfl) (r.returned.tcpFields.header check ++ r.returned.data)
    (net ++ r.returned.tcpFields.header check ++ r.returned.data).length
  rw [← List.append_assoc, if_pos rfl,
    FullPacketView.ipv4Tcp_plain hlayout hfive (hfills.reads.complete.layout check)] at hparse
  exact ⟨net, check, _, FullPacketView.newPacketBytesByThis_of_ok hnew, hparse, slice_all _ _ rfl,
    hfive, hreinjected⟩

/-- What the client makes of a response that arrived in a segment. -/
theorem injectDecoded_returns (hcalc : WritesChecksums calcChecksums) {e : Datagram}
    (he : e.WellFormed) (htcp : e.proto = .TCP) (behind : List UByte) :
    ∃ send, injectDecoded calcChecksums sizeofView (e.tcpView behind) r.returned =
      .ok (some send) ∧ Returns sizeofView r send := by
  obtain ⟨hmem, hwords, hversion, hprotocol⟩ := he.segment_front htcp behind
  obtain ⟨hvalid, hsrc, hdst⟩ := returned_valid h
  have hfills : r.returned.protoData.FillsTcp := (tunnelled_fillsTcp h.reply h.tcp).1
  have hreadable : r.returned.OptionsReadable := by
    have hlength : (r.reply.transport.drop 20).length = r.reply.transport.length - 20 :=
      List.length_drop
    rw [QTunnelData.OptionsReadable, tcpOptions_returned h, hlength]
    exact h.readable
  obtain ⟨options, hwalk⟩ := (r.returned.optionsReadable_iff hfills.reads).mpr hreadable
  obtain ⟨_, _, -, -, -, hinject⟩ := injectDecoded_tcp hcalc.toOnlyChecksums sizeofView hmem hwords
    hversion hvalid hsrc hdst hprotocol hfills.reads
    ⟨e.transport ++ (e.payload ++ behind), (e.transport.length : ℤ) - 20⟩
    (20 + e.transport.length, e.bytes.length)
  rw [hwalk] at hinject
  obtain ⟨net, check, view, hassembled, hview, hwhole, hfive, hreinjected⟩ :=
    exists_assembled h he htcp behind
  obtain ⟨net', check', hcalculated, hwritten⟩ := hreinjected.calculated hcalc hfive
  have hsend := injectDecoded_send sizeofView hvalid hassembled hview hwhole hinject
  rw [hcalculated] at hsend
  refine ⟨_, hinject, net', check', ?_, ?_⟩
  · rw [hsend, tcpFields_returned h]
    rfl
  · rw [← tcpFields_returned h]
    exact hwritten

/-- A segment that brings a response is answered by the packet of the response. -/
theorem incomingCapture_returns (hcalc : WritesChecksums calcChecksums) {m : QVPNPacketManager}
    (hm : m.Settled) (hid : m.packets r.id = none) {c : Captured} (hc : Carrier c r.record) :
    ∃ send, incomingCapture calcChecksums sizeofView defaultLayers m c.mem c.size =
      .ok (some send, m) ∧ Returns sizeofView r send := by
  obtain ⟨e, behind, hholds, he, htcp, hadvance, hpayload⟩ := hc.segment
  obtain ⟨hview, hprint⟩ := he.seenAs_tcp htcp hholds.behind_ne
  obtain ⟨⟨⟩, hprinted⟩ := hprint.mpr hadvance
  have hsome : r.record.length ≠ 0 := by
    rw [Ne, List.length_eq_zero_iff]
    exact wholeRecord_ne_nil _ _ _
  have hdecode := decodeData_wholeRecord h.returned_sendable.valid h.size hm hid
  obtain ⟨send, hinject, hreturns⟩ := injectDecoded_returns sizeofView h hcalc he htcp behind
  have hparse := hview.parse
  have hdata := hview.payload
  rw [hpayload] at hdata
  rw [← hholds.size_eq, ← hholds.mem_eq] at hparse
  rw [← hholds.mem_eq] at hdata
  refine ⟨send, ?_, hreturns⟩
  rw [incomingCapture_eq calcChecksums sizeofView hparse hdata hsome hprinted hdecode]
  change (injectDecoded calcChecksums sizeofView (e.tcpView behind) r.returned >>= _) = _
  rw [hinject]
  rfl

omit h in
/-- Each response that arrives in a segment of its own is injected. -/
theorem incomingCaptures_returns (hcalc : WritesChecksums calcChecksums) {client : QVPNPacketManager}
    (hempty : client.Empty) (hcached : client.cached = none) {responses : List Response}
    (hresponses : ∀ r ∈ responses, r.WellFormed) {carriers : List Captured}
    (hcarriers : List.Forall₂ Carrier carriers (responses.map Response.record)) :
    ∃ sends, incomingCaptures calcChecksums sizeofView client carriers =
        .ok (sends.map some, client) ∧
      List.Forall₂ (Returns sizeofView) responses sends := by
  induction responses generalizing carriers with
  | nil =>
    cases hcarriers
    exact ⟨[], rfl, .nil⟩
  | cons r responses ih =>
    cases hcarriers with
    | cons hc hlater =>
      obtain ⟨send, hsend, hreturns⟩ := incomingCapture_returns sizeofView
        (hresponses r (List.mem_cons_self ..)) hcalc (hempty.settled hcached) (hempty r.id) hc
      obtain ⟨sends, hsends, hall⟩ := ih
        (fun other hother => hresponses other (List.mem_cons_of_mem _ hother)) hlater
      refine ⟨send :: sends, ?_, .cons hreturns hall⟩
      rw [incomingCaptures, hsend, ok_bind]
      dsimp only
      rw [hsends]
      rfl

end Injected

/-- Whatever the server takes up from remote hosts for a client, and whatever other clients' packets
are numbered in between: if each record arrives in a segment of its own, the client hands to the
driver a complete packet for each of them, in order, which is the packet of the remote host with the
client's address and port, and keeps nothing. -/
theorem responses_return {calcChecksums : List UByte → List UByte}
    (hcalc : WritesChecksums calcChecksums) (sizeofView : ℕ) {server client : QVPNPacketManager}
    (hserver : server.DefaultConfig) (hempty : client.Empty) (hcached : client.cached = none)
    {responses : List Response} (hresponses : ∀ r ∈ responses, r.WellFormed) :
    ∃ records, respond server responses = .ok records ∧
      ∀ carriers, List.Forall₂ Carrier carriers records →
        ∃ sends, incomingCaptures calcChecksums sizeofView client carriers =
            .ok (sends.map some, client) ∧
          List.Forall₂ (Returns sizeofView) responses sends := by
  refine ⟨_, respond_eq hserver hresponses, ?_⟩
  intro carriers hcarriers
  exact incomingCaptures_returns sizeofView hcalc hempty hcached hresponses hcarriers

/-- The answer to a connection request. -/
def synAck : Response where
  id := 7
  key := ⟨.IPv4, .TCP, ⟨[10, 0, 0, 2]⟩, ⟨[192, 168, 0, 1]⟩, 4000, ⟨[93, 184, 216, 34]⟩, 80⟩
  reply := ⟨.TCP, [0x45, 0, 0, 40, 0, 0, 0x40, 0, 60, 6, 0, 0, 93, 184, 216, 34, 192, 168, 0, 1],
    [0, 80, 15, 160, 0, 0, 0, 9, 0, 0, 0, 2, 0x50, 0x12, 4, 0, 0, 0, 0, 0], []⟩

theorem synAck_wellFormed : synAck.WellFormed where
  reply := ⟨⟨by decide, ⟨by decide, by decide⟩, by decide, by decide,
    Or.inl ⟨rfl, ⟨by decide, by decide⟩⟩⟩, by decide⟩
  tcp := rfl
  readable := fun _ _ hlt => absurd hlt (Nat.not_lt_zero _)
  size := by decide
  client := rfl

/-- The segment that brings it. -/
def synAckSegment : Datagram :=
  ⟨.TCP, [0x45, 0, 0, 81, 0, 9, 0x40, 0, 64, 6, 0, 0, 10, 0, 0, 1, 10, 0, 0, 2],
    [1, 187, 200, 1, 0, 0, 0, 1, 0, 0, 0, 2, 0x50, 0x18, 4, 0, 0, 0, 0, 0], synAck.record⟩

theorem synAckSegment_carrier : Carrier ⟨synAckSegment.bytes ++ [0], 81⟩ synAck.record where
  segment := ⟨synAckSegment, [0], ⟨rfl, by decide, List.cons_ne_nil _ _⟩,
    ⟨⟨by decide, ⟨by decide, by decide⟩, by decide, by decide,
      Or.inl ⟨rfl, ⟨by decide, by decide⟩⟩⟩, by decide⟩, rfl,
    fun _ _ _ hlt => absurd hlt (Nat.not_lt_zero _), rfl⟩

/-- The answer is handed to the driver, behind a helper that writes the checksums. -/
theorem responses_return_synAck : ∃ sends,
    incomingCaptures calculatedChecksums 88 (initial .increasing) [⟨synAckSegment.bytes ++ [0], 81⟩] =
        .ok (sends.map some, initial .increasing) ∧
      List.Forall₂ (Returns 88) [synAck] sends := by
  have hwellFormed : ∀ r ∈ [synAck], r.WellFormed := by
    simpa using synAck_wellFormed
  obtain ⟨records, hrespond, hreturn⟩ := responses_return calculatedChecksums_writes 88
    (initial_defaultConfig .increasing) (initial_empty .increasing) rfl hwellFormed
  have hrecords := respond_eq (initial_defaultConfig .increasing) hwellFormed
  cases hrecords.symm.trans hrespond
  exact hreturn _ (.cons synAckSegment_carrier .nil)

end QVPN
