import Mathlib.Data.List.GetD
import QVPN.Properties.TcpReinjection

/-!
# The checksum helper

Before a packet is handed to the driver, a helper of the driver's library writes its checksums in
place. It is no code of this program, so what is relied on is stated of any function: the bytes outside
the checksums stay, and behind it the checksums of a packet verify. A function that writes the
checksums of packets with TCP has both properties.
-/

namespace QVPN

open BigEndian Checksum Memory

/-- Where the headers of a transport protocol hold their checksum. -/
def TransportProtocol.checksumAt (proto : TransportProtocol) : ℕ := if proto = .UDP then 6 else 16

/-- What is relied on of the checksum helper: in place, it writes the checksums of an IPv4
packet that carries TCP or UDP and leaves the other bytes alone. -/
structure OnlyChecksums (calcChecksums : List UByte → List UByte) : Prop where
  length_eq (packet : List UByte) : (calcChecksums packet).length = packet.length
  getElem?_eq {proto : TransportProtocol} {packet : List UByte} {i : ℕ}
    (hversion : packet.getD 0 0 >>> 4 = NetProtocol.IPv4.val)
    (hprotocol : packet.getD 9 0 = proto.val) (hproto : proto = .TCP ∨ proto = .UDP)
    (hnet : i / 2 ≠ 5) (hfirst : i ≠ 4 * declaredWords packet + proto.checksumAt)
    (hsecond : i ≠ 4 * declaredWords packet + proto.checksumAt + 1) :
    (calcChecksums packet)[i]? = packet[i]?

/-- What goes in front of a TCP segment for its checksum. -/
def tcpPseudoHeader (net : List UByte) (size : ℕ) : List UByte :=
  TransportIpv4PseudoHeader.data ⟨(net.drop 12).take 4⟩ ⟨(net.drop 16).take 4⟩ .TCP
    (UInt16.ofNat size)

theorem tcpPseudoHeader_length {net : List UByte} (h : net.length = 20) (size : ℕ) :
    (tcpPseudoHeader net size).length = 12 := by
  simp only [tcpPseudoHeader, TransportIpv4PseudoHeader.data, List.length_append, List.length_take,
    List.length_drop, h, bytes16_length, List.length_cons, List.length_nil]
  rfl

/-- What is documented of the checksum helper besides: behind it, both checksums of a packet that
carries TCP verify. -/
structure WritesChecksums (calcChecksums : List UByte → List UByte) : Prop
    extends OnlyChecksums calcChecksums where
  verifies {net transport payload : List UByte} (hpacket : IsIpv4Packet .TCP net transport payload)
    (hplain : declaredWords net = 5) :
    onesSum ((calcChecksums (net ++ transport ++ payload)).take 20) 0 = 65535 ∧
      onesSum (tcpPseudoHeader net (transport.length + payload.length) ++
        (calcChecksums (net ++ transport ++ payload)).drop 20) 0 = 65535

/-- Bytes with their checksum at a position, over a pseudo header. -/
def storedChecksum (pseudo bytes : List UByte) (position : ℕ) : List UByte :=
  bytes.take position ++
    bytes16 (complement (sumBytes (pseudo ++ clearedHeader bytes position) 0)) ++
      bytes.drop (position + 2)

/-- A helper that writes the two checksums of IPv4 packets that carry TCP. -/
def calculatedChecksums (packet : List UByte) : List UByte :=
  if packet.getD 0 0 >>> 4 = NetProtocol.IPv4.val ∧ packet.getD 9 0 = TransportProtocol.TCP.val ∧
      20 ≤ 4 * declaredWords packet ∧ 4 * declaredWords packet + 18 ≤ packet.length then
    storedChecksum [] (packet.take (4 * declaredWords packet)) 10 ++
      storedChecksum (tcpPseudoHeader (packet.take (4 * declaredWords packet))
        (packet.length - 4 * declaredWords packet)) (packet.drop (4 * declaredWords packet)) 16
  else packet

section Stored

variable {bytes : List UByte} {position : ℕ} (hposition : position + 2 ≤ bytes.length)
  (pseudo : List UByte)
include hposition

/-- Storing a checksum replaces two bytes. -/
theorem storedChecksum_length : (storedChecksum pseudo bytes position).length = bytes.length := by
  rw [storedChecksum, List.length_append, List.length_append, List.length_take_of_le (by omega),
    bytes16_length, List.length_drop]
  omega

/-- The other bytes stay. -/
theorem storedChecksum_getElem? {i : ℕ} (hfirst : i ≠ position) (hsecond : i ≠ position + 1) :
    (storedChecksum pseudo bytes position)[i]? = bytes[i]? := by
  have hfront : (bytes.take position).length = position := List.length_take_of_le (by omega)
  have hcut := word_split (by omega : position + 1 < bytes.length)
  generalize join (bytes.getD position 0) (bytes.getD (position + 1) 0) = word at hcut
  rw [storedChecksum, getElem?_outside word _ (by omega) (by omega), ← hcut]

/-- A stored checksum verifies. -/
theorem storedChecksum_verifies (heven : (pseudo.length + position) % 2 = 0)
    (hsize : pseudo.length + bytes.length ≤ 65547) :
    onesSum (pseudo ++ storedChecksum pseudo bytes position) 0 = 65535 := by
  have hsplit (word : UShort) : pseudo ++ (bytes.take position ++ bytes16 word ++
      bytes.drop (position + 2)) = (pseudo ++ bytes.take position) ++ bytes16 word ++
        bytes.drop (position + 2) := by
    simp only [List.append_assoc]
  have hlength : (pseudo ++ clearedHeader bytes position).length ≤ 65547 := by
    rw [List.length_append, clearedHeader_length hposition]
    exact hsize
  rw [clearedHeader, hsplit] at hlength
  rw [storedChecksum, clearedHeader, hsplit, hsplit]
  refine onesSum_complement ?_ hlength
  rw [List.length_append, List.length_take_of_le (by omega)]
  exact heven

end Stored

/-- What the helper makes of a packet without IP options. -/
theorem calculatedChecksums_plain {net rest : List UByte} (hlength : net.length = 20)
    (hversion : net.getD 0 0 >>> 4 = NetProtocol.IPv4.val) (hwords : declaredWords net = 5)
    (hprotocol : net.getD 9 0 = TransportProtocol.TCP.val) (hrest : 18 ≤ rest.length) :
    calculatedChecksums (net ++ rest) = storedChecksum [] net 10 ++
      storedChecksum (tcpPseudoHeader net rest.length) rest 16 := by
  have hget (i : ℕ) (hi : i < 20) : (net ++ rest).getD i 0 = net.getD i 0 :=
    List.getD_append _ _ _ _ (by omega)
  have hfive : declaredWords (net ++ rest) = 5 := by
    rw [declaredWords, hget 0 (by decide)]
    exact hwords
  have hbehind : (net ++ rest).length - 4 * 5 = rest.length := by
    rw [List.length_append]
    omega
  rw [calculatedChecksums, hfive, if_pos, hbehind, List.take_left' hlength, List.drop_left' hlength]
  refine ⟨?_, ?_, by decide, ?_⟩
  · rw [hget 0 (by decide), hversion]
  · rw [hget 9 (by decide), hprotocol]
  · rw [List.length_append]
    omega

/-- The helper writes the checksums and nothing else. -/
theorem calculatedChecksums_writes : WritesChecksums calculatedChecksums where
  length_eq packet := by
    unfold calculatedChecksums
    split
    · next h =>
      obtain ⟨-, -, hsize, hlong⟩ := h
      rw [List.length_append, storedChecksum_length (by rw [List.length_take]; omega),
        storedChecksum_length (by rw [List.length_drop]; omega), List.length_take, List.length_drop]
      omega
    · rfl
  getElem?_eq := by
    intro proto packet i hversion hprotocol hproto hnet hfirst hsecond
    unfold calculatedChecksums
    split
    · next h =>
      obtain ⟨-, htcp, hsize, hlong⟩ := h
      obtain rfl : proto = .TCP := congrArg TransportProtocol.mk (hprotocol.symm.trans htcp)
      change i ≠ 4 * declaredWords packet + 16 at hfirst
      change i ≠ 4 * declaredWords packet + 16 + 1 at hsecond
      generalize tcpPseudoHeader (packet.take (4 * declaredWords packet))
        (packet.length - 4 * declaredWords packet) = pseudo
      generalize 4 * declaredWords packet = size at *
      have hfront : (packet.take size).length = size := List.length_take_of_le (by omega)
      have hback : (packet.drop size).length = packet.length - size := List.length_drop
      have hkept := storedChecksum_length (by omega : 10 + 2 ≤ (packet.take size).length) []
      by_cases hi : i < size
      · rw [List.getElem?_append_left (by omega),
          storedChecksum_getElem? (by omega) _ (by omega) (by omega), List.getElem?_take_of_lt hi]
      · rw [List.getElem?_append_right (by omega), hkept, hfront,
          storedChecksum_getElem? (by omega) _ (by omega) (by omega), List.getElem?_drop]
        congr 1
        omega
    · rfl
  verifies := by
    intro net transport payload hpacket hplain
    have hlength : net.length = 20 := by rw [hpacket.layout.length_eq, hplain]
    obtain ⟨-, htransport⟩ | ⟨hudp, -⟩ := hpacket.transport_header
    · have hge := htransport.offset_ge
      have hheader := htransport.length_eq
      have htotal := hpacket.total_le
      have hstored := storedChecksum_length (by omega : 10 + 2 ≤ net.length) []
      have hrest : (transport ++ payload).length = transport.length + payload.length :=
        List.length_append
      rw [List.append_assoc, calculatedChecksums_plain hlength hpacket.version hplain
        hpacket.protocol (by omega), List.take_left' (by omega), List.drop_left' (by omega), hrest]
      constructor
      · exact storedChecksum_verifies (by omega) [] (by decide) (by rw [hlength]; decide)
      · have hpseudo := tcpPseudoHeader_length hlength (transport.length + payload.length)
        exact storedChecksum_verifies (by omega) _ (by omega) (by omega)
    · cases hudp

/-- An IP header with another checksum. -/
def withChecksum (net : List UByte) (word : UShort) : List UByte :=
  net.take 10 ++ bytes16 word ++ net.drop 12

section WithChecksum

variable {net : List UByte} (hlength : net.length = 20) (word : UShort)
include hlength

theorem withChecksum_length : (withChecksum net word).length = 20 := by
  rw [withChecksum, List.length_append, List.length_append, List.length_take_of_le (by omega),
    bytes16_length, List.length_drop, hlength]

/-- The fields in front of the checksum stay. -/
theorem withChecksum_getD {i : ℕ} (hi : i < 10) :
    (withChecksum net word).getD i 0 = net.getD i 0 := by
  have hfront : (net.take 10).length = 10 := List.length_take_of_le (by omega)
  rw [withChecksum, List.append_assoc, List.getD_append _ _ _ _ (by omega), getD_take hi]

theorem withChecksum_words : declaredWords (withChecksum net word) = declaredWords net := by
  rw [declaredWords, withChecksum_getD hlength word (by decide)]
  rfl

/-- The addresses behind it stay, too. -/
theorem withChecksum_drop (n : ℕ) : (withChecksum net word).drop (12 + n) = net.drop (12 + n) := by
  have hfront : (net.take 10 ++ bytes16 word).length = 12 := by
    rw [List.length_append, List.length_take_of_le (by omega), bytes16_length]
  rw [← List.drop_drop, ← List.drop_drop, withChecksum, List.drop_left' hfront]

end WithChecksum

/-- What the helper makes of a packet differs from it in one word of each header. -/
theorem OnlyChecksums.apply {calcChecksums : List UByte → List UByte}
    (hcalc : OnlyChecksums calcChecksums) {proto : TransportProtocol}
    (hproto : proto = .TCP ∨ proto = .UDP) {net payload : List UByte}
    {header : UShort → List UByte} (sum : UShort) (hlength : net.length = 20)
    (hversion : net.getD 0 0 >>> 4 = NetProtocol.IPv4.val) (hwords : declaredWords net = 5)
    (hprotocol : net.getD 9 0 = proto.val)
    (hsplit : ∃ front back, front.length = proto.checksumAt ∧
      ∀ sum, header sum ++ payload = front ++ bytes16 sum ++ back) :
    ∃ word sum', calcChecksums (net ++ header sum ++ payload) =
      withChecksum net word ++ (header sum' ++ payload) := by
  obtain ⟨front, back, hfront, hsplit⟩ := hsplit
  rw [List.append_assoc, hsplit]
  generalize hpacket : net ++ (front ++ bytes16 sum ++ back) = packet
  have hget (i : ℕ) (hi : i < 20) : packet.getD i 0 = net.getD i 0 := by
    rw [← hpacket, List.getD_append _ _ _ _ (by omega)]
  have hfive : declaredWords packet = 5 := by
    rw [declaredWords, hget 0 (by decide)]
    exact hwords
  have hagree (i : ℕ) (hnet : i / 2 ≠ 5) (hfirst : i ≠ 20 + front.length)
      (hsecond : i ≠ 20 + front.length + 1) : (calcChecksums packet)[i]? = packet[i]? := by
    rw [hfront] at hfirst hsecond
    exact hcalc.getElem?_eq (by rw [hget 0 (by decide), hversion])
      (by rw [hget 9 (by decide), hprotocol]) hproto hnet (by rw [hfive]; exact hfirst)
      (by rw [hfive]; exact hsecond)
  have hsame := hcalc.length_eq packet
  have hlong : 20 ≤ packet.length := by
    rw [← hpacket, List.length_append]
    omega
  have hhead : packet.take 20 = net := by rw [← hpacket, List.take_left' hlength]
  have hbehind : packet.drop 20 = front ++ bytes16 sum ++ back := by
    rw [← hpacket, List.drop_left' hlength]
  have hcut := word_split (by omega : 10 + 1 < net.length)
  -- in the IP header the two may differ at the places 10 and 11
  obtain ⟨word, hword⟩ : ∃ word, (calcChecksums packet).take 20 = withChecksum net word := by
    have hten : (net.take 10).length = 10 := List.length_take_of_le (by omega)
    refine eq_of_agree_outside (v := join (net.getD 10 0) (net.getD 11 0)) ?_ ?_
    · rw [← hcut, ← hhead, List.length_take, List.length_take, hsame]
    · intro i hfirst hsecond
      rw [← hcut, ← hhead, List.getElem?_take, List.getElem?_take]
      split
      · exact hagree i (by omega) (by omega) (by omega)
      · rfl
  -- and behind it where the transport header has its checksum
  obtain ⟨sum', hsum'⟩ : ∃ sum', (calcChecksums packet).drop 20 = front ++ bytes16 sum' ++ back := by
    refine eq_of_agree_outside (v := sum) ?_ ?_
    · rw [← hbehind, List.length_drop, List.length_drop, hsame]
    · intro i hfirst hsecond
      rw [← hbehind, List.getElem?_drop, List.getElem?_drop]
      exact hagree (20 + i) (by omega) (by omega) (by omega)
  exact ⟨word, sum', by rw [hsplit, ← hword, ← hsum', List.take_append_drop]⟩

/-- A TCP header around its checksum. -/
theorem TcpFields.header_split (g : TcpFields) (rest : List UByte) :
    ∃ front back, front.length = TransportProtocol.TCP.checksumAt ∧
      ∀ sum, g.header sum ++ rest = front ++ bytes16 sum ++ back := by
  refine ⟨bytes16 g.srcPort ++ bytes16 g.dstPort ++ bytes32 g.seq ++ bytes32 g.ack ++
    [g.offset, g.flags] ++ bytes16 g.window, bytes16 g.urgent ++ g.options ++ rest, rfl, ?_⟩
  intro sum
  simp only [header, List.append_assoc]

/-- Headers with different checksums agree outside them. -/
theorem TcpFields.readAt_header (g : TcpFields) (check check' : UShort) {i : ℕ} (hfirst : i ≠ 16)
    (hsecond : i ≠ 17) : readAt (g.header check') i = readAt (g.header check) i := by
  obtain ⟨front, back, hfront, hsplit⟩ := g.header_split []
  have hlength : front.length = 16 := hfront
  simp only [List.append_nil] at hsplit
  rw [readAt, readAt, hsplit, hsplit, getElem?_outside check check' (by omega) (by omega)]

theorem TcpFields.read16_header (g : TcpFields) (check check' : UShort) {i : ℕ}
    (h : i + 1 < 16 ∨ 17 < i) : read16 (g.header check') i = read16 (g.header check) i := by
  rw [read16, read16, g.readAt_header check check' (by omega) (by omega),
    g.readAt_header check check' (by omega) (by omega)]

theorem TcpFields.read32_header (g : TcpFields) (check check' : UShort) {i : ℕ}
    (h : i + 3 < 16 ∨ 17 < i) : read32 (g.header check') i = read32 (g.header check) i := by
  rw [read32, read32, g.readAt_header check check' (by omega) (by omega),
    g.readAt_header check check' (by omega) (by omega),
    g.readAt_header check check' (by omega) (by omega),
    g.readAt_header check check' (by omega) (by omega)]

theorem TcpFields.getD_header (g : TcpFields) (check : UShort) :
    (g.header check).getD 12 0 = g.offset := rfl

/-- What a header carries does not depend on its checksum. -/
theorem CarriesScheme.otherChecksum {scheme : QTunnelTCPViewScheme} {g : TcpFields} {check : UShort}
    (h : CarriesScheme scheme (g.header check)) (check' : UShort) :
    CarriesScheme scheme (g.header check') where
  seq := by rw [h.seq, g.read32_header check check' (by decide)]
  ack := by rw [h.ack, g.read32_header check check' (by decide)]
  offset := by rw [h.offset, g.getD_header, g.getD_header]
  ns := by rw [h.ns, g.getD_header, g.getD_header]
  flags := by rw [h.flags, g.readAt_header check check' (by decide) (by decide)]
  window := by rw [h.window, g.read16_header check check' (by decide)]
  urgent := by rw [h.urgent, g.read16_header check check' (by decide)]
  options := h.options
/-- A UDP header around its checksum. -/
theorem UdpFields.header_split (g : UdpFields) (length : UShort) (rest : List UByte) :
    ∃ front back, front.length = TransportProtocol.UDP.checksumAt ∧
      ∀ sum, g.header length sum ++ rest = front ++ bytes16 sum ++ back := by
  refine ⟨bytes16 g.srcPort ++ bytes16 g.dstPort ++ bytes16 length, rest, rfl, ?_⟩
  intro sum
  simp only [header]

/-- Behind the helper, a packet that is made for a decoded TCP packet is still one, with checksums
that verify. -/
theorem IsReinjectedTcp.calculated {calcChecksums : List UByte → List UByte}
    (hcalc : WritesChecksums calcChecksums) {proxy : QTunnelProxy} {net payload : List UByte}
    {g : TcpFields} {check : UShort} (h : IsReinjectedTcp proxy net (g.header check) payload)
    (hplain : declaredWords net = 5) :
    ∃ net' check', calcChecksums (net ++ g.header check ++ payload) =
        net' ++ g.header check' ++ payload ∧
      IsReinjectedTcp proxy net' (g.header check') payload := by
  have hlength : net.length = 20 := by rw [h.packet.layout.length_eq, hplain]
  obtain ⟨word, check', hcalculated⟩ := hcalc.toOnlyChecksums.apply (.inl rfl) check hlength
    h.packet.version hplain h.packet.protocol (g.header_split payload)
  obtain ⟨hnet, htransport⟩ := hcalc.verifies h.packet hplain
  have hheader : (g.header check').length = (g.header check).length := by
    rw [TcpFields.header_length, TcpFields.header_length]
  have hlayout : IsTcpLayout (g.header check') := by
    have hoffset : declaredOffset (g.header check') = declaredOffset (g.header check) := by
      rw [declaredOffset, declaredOffset, g.getD_header, g.getD_header]
    obtain ⟨-, hge, hsize⟩ | ⟨hudp, -⟩ := h.packet.transport_header
    · exact ⟨hoffset ▸ hge, by rw [hheader, hoffset, hsize]⟩
    · cases hudp
  have hlength' := withChecksum_length hlength word
  have hwords' := (withChecksum_words hlength word).trans hplain
  have hget (i : ℕ) (hi : i < 10) := withChecksum_getD hlength word hi
  have hsrc : ((withChecksum net word).drop 12).take 4 = proxy.sourceAddr.ip := by
    rw [withChecksum_drop hlength word 0, h.src]
  have hdst : ((withChecksum net word).drop 16).take 4 = proxy.dstAddr.ip := by
    rw [withChecksum_drop hlength word 4, h.dst]
  rw [hcalculated, List.take_left' hlength'] at hnet
  rw [hcalculated, List.drop_left' hlength', tcpPseudoHeader, h.src, h.dst, ← hheader,
    ← List.append_assoc] at htransport
  refine ⟨withChecksum net word, check', ?_, ?_⟩
  · rw [hcalculated, List.append_assoc]
  · exact {
      packet := {
        version := by rw [hget 0 (by decide), h.packet.version]
        layout := ⟨by omega, by omega⟩
        total_length := by
          rw [hget 2 (by decide), hget 3 (by decide), h.packet.total_length, hheader, hlength,
            hlength']
        protocol := by rw [hget 9 (by decide), h.packet.protocol]
        transport_header := Or.inl ⟨rfl, hlayout⟩ }
      src := hsrc
      dst := hdst
      srcPort := (g.read16_header check check' (by decide)).trans h.srcPort
      dstPort := (g.read16_header check check' (by decide)).trans h.dstPort
      scheme := h.scheme.otherChecksum check'
      net_checksum := hnet
      transport_checksum := htransport }

end QVPN
