import QVPN.Properties.Reinjection

/-!
# UDP packets assembled for injection

The assembly of a UDP packet differs from that of a TCP packet in its lengths: the transport
header is given the length of a header without payload, whatever follows it.
-/

namespace QVPN

open BigEndian Checksum Memory

namespace UdpFields

variable (g : UdpFields) (length check : UShort)

theorem header_length : (g.header length check).length = 8 := by
  simp only [header, List.length_append, bytes16_length]

/-- Storing a length replaces the length. -/
theorem setTransportLength (rest : List UByte) (length' : UShort) :
    UdpPacketView.setTransportLength ⟨g.header length check ++ rest⟩ length' =
      .ok ⟨g.header length' check ++ rest⟩ := by
  have hwrite := write16_append (bytes16 g.srcPort ++ bytes16 g.dstPort) length' length
    (bytes16 check ++ rest) (show 4 = _ by simp)
  simp only [← List.append_assoc] at hwrite
  rw [UdpPacketView.setTransportLength]
  simp only [header]
  rw [hwrite]
  rfl

end UdpFields

section Assembled

variable (f : Ipv4Fields) (hwords : (f.first &&& 0xF).toNat = 5) (total sum : UShort)
  {src dst : List UByte} (hsrc : src.length = 4) (hdst : dst.length = 4)
include hsrc hdst hwords

/-- Recalculating the lengths of a packet carrying UDP leaves its header with the length eight. -/
theorem recalculateLengths_udp (g : UdpFields) (length check : UShort) (payload : List UByte) :
    (FullPacketObject.udp (f.header total sum src dst ++ g.header length check ++
      payload)).recalculateLengths =
      .ok (.udp (f.header (UInt16.ofNat (28 + payload.length)) sum src dst ++ g.header 8 check ++
        payload)) := by
  have hnet := f.isIpv4Layout hwords total sum hsrc hdst
  have hlength := f.header_length total sum hsrc hdst
  have hview := hnet.parsePacket_plain hwords (g.header length check ++ payload)
  have hdrop (t : UShort) : (f.header t sum src dst ++ (g.header length check ++ payload)).drop 20 =
      g.header length check ++ payload := List.drop_left' (f.header_length t sum hsrc hdst)
  have hdata : UInt16.ofInt (20 + 0 + 8 +
      (((f.header total sum src dst ++ (g.header length check ++ payload)).length : ℤ) -
        ((20 : ℕ) + (8 : ℕ)))) = UInt16.ofNat (28 + payload.length) := by
    apply ofInt_eq_ofNat
    rw [List.length_append, hlength, List.length_append, g.header_length]
    omega
  rw [List.append_assoc, List.append_assoc, FullPacketObject.recalculateLengths]
  dsimp only
  rw [hview, ok_bind]
  change (Ipv4PacketView.setIpTotalLength _ (UInt16.ofInt (20 + 0 + 8 + (_ - ((20 : ℕ) + (8 : ℕ))))) >>=
    fun ip => _) = _
  rw [hdata, f.setIpTotalLength_header, ok_bind]
  change (UdpPacketView.setTransportLength ⟨(f.header _ sum src dst ++
    (g.header length check ++ payload)).drop 20⟩ 8 >>= fun transport => _) = _
  rw [hdrop, g.setTransportLength, ok_bind]
  change Except.ok (FullPacketObject.udp ((f.header _ sum src dst ++
    (g.header length check ++ payload)).take 20 ++ (g.header 8 check ++ payload))) = _
  rw [List.take_left' (f.header_length _ sum hsrc hdst)]

/-- Recalculating the checksums of a packet carrying UDP stores those of its fields. -/
theorem recalculateChecksums_udp (g : UdpFields) (length check : UShort) (payload : List UByte) :
    (FullPacketObject.udp (f.header total sum src dst ++ g.header length check ++
      payload)).recalculateChecksums =
      .ok (.udp (f.stamped total src dst ++ g.header length (complement (segmentSum
        (TransportIpv4PseudoHeader.data ⟨src⟩ ⟨dst⟩ ⟨f.protocol⟩ (total - 20))
          (g.header length check) payload 6)) ++ payload)) := by
  have hnet := f.isIpv4Layout hwords total sum hsrc hdst
  have hstamped : (f.stamped total src dst).length = 20 := f.header_length total _ hsrc hdst
  have height := g.header_length length check
  have hview := hnet.parsePacket_plain hwords (g.header length check ++ payload)
  have hdrop : (f.stamped total src dst ++ (g.header length check ++ payload)).drop 20 =
      g.header length check ++ payload := List.drop_left' hstamped
  have hpayload : slice (f.stamped total src dst ++ (g.header length check ++ payload))
      ((20 : ℕ) + (8 : ℕ)) (f.stamped total src dst ++
        (g.header length check ++ payload)).length = .ok payload := by
    rw [← List.append_assoc]
    exact slice_suffix _ _ _ _ (by rw [List.length_append, hstamped, height]; rfl)
      (by rw [List.length_append]; rfl)
  have hpseudo := pseudoHeader_stamped f hwords total hsrc hdst (g.header length check ++ payload)
  have htwelve : (TransportIpv4PseudoHeader.data ⟨src⟩ ⟨dst⟩ ⟨f.protocol⟩ (total - 20)).length =
      12 := pseudoHeader_length hsrc hdst _ _
  rw [List.append_assoc, List.append_assoc, FullPacketObject.recalculateChecksums,
    hview, ok_bind, f.recalculateIpChecksum_header total sum hsrc hdst, ok_bind]
  change (slice _ ((20 : ℕ) + (8 : ℕ)) _ >>= fun payload => _) = _
  rw [hpayload, ok_bind, hpseudo, ok_bind]
  change (UdpPacketView.recalculateTransportChecksum ⟨(f.stamped total src dst ++
    (g.header length check ++ payload)).drop 20⟩ (TransportIpv4PseudoHeader.data ⟨src⟩ ⟨dst⟩
      ⟨f.protocol⟩ (total - 20)) _ >>= fun transport => _) = _
  rw [hdrop, UdpPacketView.recalculateTransportChecksum_eq htwelve height payload, ok_bind,
    UdpFields.header_checksum]
  change Except.ok (FullPacketObject.udp (List.take 20 _ ++ _)) = _
  rw [List.take_left' hstamped]

/-- Headers and payload of a packet carrying UDP put one behind the other. -/
theorem ofUdp_header (g : UdpFields) (length : UShort) (payload : List UByte) :
    FullPacketObject.ofUdp (f.header total sum src dst) (g.header length 0) payload =
      .ok (.udp (f.header total sum src dst ++ g.header length 0 ++ payload)) := by
  have hnet := f.isIpv4Layout hwords total sum hsrc hdst
  rw [FullPacketObject.ofUdp]
  change (FullPacketView.ipv4Udp _ _ >>= fun _ => _) = _
  rw [List.append_assoc, FullPacketView.ipv4Udp_plain hnet hwords]
  rfl

/-- Putting the parts of a packet carrying UDP together, with lengths and checksums. -/
theorem assemble_udp (g : UdpFields) (length : UShort) (payload : List UByte) :
    (do
      let packet ← FullPacketObject.ofUdp (f.header total sum src dst) (g.header length 0) payload
      let packet ← packet.recalculateLengths
      packet.recalculateChecksums) =
      .ok (.udp (f.stamped (UInt16.ofNat (28 + payload.length)) src dst ++
        g.header 8 (complement (segmentSum (TransportIpv4PseudoHeader.data ⟨src⟩ ⟨dst⟩ ⟨f.protocol⟩
          (UInt16.ofNat (28 + payload.length) - 20)) (g.header 8 0) payload 6)) ++ payload)) := by
  rw [ofUdp_header f hwords total sum hsrc hdst, ok_bind,
    recalculateLengths_udp f hwords total sum hsrc hdst, ok_bind,
    recalculateChecksums_udp f hwords _ sum hsrc hdst]

end Assembled

/-- The ports of the header made for proxy data. -/
def QTunnelProxy.udpFields (p : QTunnelProxy) : UdpFields := ⟨p.sourcePort, p.dstPort⟩

/-- The packet made after a UDP carrier without IP options. -/
theorem FullPacketView.newPacketByThis_udp {mem : List UByte} (hmem : 20 ≤ mem.length)
    (hwords : declaredWords mem = 5) {proxy : QTunnelProxy}
    (hsrc : proxy.sourceAddr.ip.length = 4) (hdst : proxy.dstAddr.ip.length = 4)
    (hproto : 4 ≤ proxy.protoData.data.length) (transport : UdpPacketView) (range : ℤ × ℤ)
    (payload : List UByte) :
    (FullPacketView.udp ⟨mem, 0⟩ transport range).newPacketByThis proxy payload =
      .ok (.udp ((carrierFields mem).stamped (UInt16.ofNat (28 + payload.length))
          proxy.sourceAddr.ip proxy.dstAddr.ip ++
        proxy.udpFields.header 8 (newChecksum (carrierFields mem) proxy (proxy.udpFields.header 8 0)
          payload 6) ++ payload)) := by
  obtain ⟨hlayout, hfive⟩ := carrier_layout hmem hwords
  have hlength := read16_getD (show 2 + 1 < proxy.protoData.data.length by omega)
  have hparent := hlayout.parsePacket_plain hfive (mem.drop 20)
  have hnet := Ipv4PacketView.generateObject_eq hlayout hfive (mem.drop 20) hsrc hdst
    (UInt16.ofNat (8 + payload.length))
  rw [List.take_append_drop] at hparent hnet
  rw [newPacketByThis]
  dsimp only
  rw [QTunnelUDPViewScheme.getLength, hlength, ok_bind, hparent, ok_bind]
  change (Ipv4PacketView.generateObject _ _ _ (UInt16.ofNat (8 + payload.length)) >>= fun net => _) = _
  rw [hnet, ok_bind]
  exact assemble_udp (carrierFields mem) hfive _ _ hsrc hdst proxy.udpFields _ payload

end QVPN
