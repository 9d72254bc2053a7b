import QVPN.Structures.Types

/-!
# Tunnel packets

What one user packet is inside the tunnel: the proxy data (protocols, addresses, ports and
the length-prefixed proto data) followed by the payload. The decoder consumes the same
fields from the front of a byte vector; every index and every erased range is checked.
-/

namespace QVPN

open BigEndian Memory

/-- Transport fields in tunnel form: a two-byte length followed by that many bytes. -/
structure QTunnelProtoData where
  data : List UByte
  deriving DecidableEq, Repr

namespace QTunnelProtoData

/-- Default proto data is an empty body with a zero length. -/
def default : QTunnelProtoData := ⟨[0, 0]⟩

def ofLength (length : UShort) (bytes : List UByte) : QTunnelProtoData := ⟨bytes16 length ++ bytes⟩

def getLength (p : QTunnelProtoData) : Except Fault UShort :=
  if p.data.length = 0 then .ok 0 else read16 p.data 0

/-- The bytes behind the length. -/
def getProtoData (p : QTunnelProtoData) : Except Fault (List UByte) := do
  let _ ← p.getLength
  slice p.data 2 p.data.length

/-- The prefix of the proto data announces exactly the bytes that follow it. -/
def WellFormed (p : QTunnelProtoData) : Prop :=
  ∃ length bytes, p = ofLength length bytes ∧ length.toNat = bytes.length

theorem getLength_ofLength (length : UShort) (bytes : List UByte) :
    (ofLength length bytes).getLength = .ok length := by
  rw [getLength, if_neg (by simp [ofLength])]
  exact read16_append [] length bytes

end QTunnelProtoData

/-- Where a tunnelled packet comes from, where it goes, and its transport fields. -/
structure QTunnelProxy where
  netProtocol : NetProtocol
  transportProtocol : TransportProtocol
  sourceAddr : NetAddr
  sourcePort : UShort
  dstAddr : NetAddr
  dstPort : UShort
  protoData : QTunnelProtoData
  deriving DecidableEq, Repr

namespace QTunnelProxy

/-- Only IPv4 packets carrying TCP or UDP are injected. -/
def checkValidity (p : QTunnelProxy) : Bool :=
  p.netProtocol = .IPv4 ∧ (p.transportProtocol = .TCP ∨ p.transportProtocol = .UDP)

/-- The size the proxy data takes in an encoded packet, as a 16-bit number. -/
def getProxyDataSize (p : QTunnelProxy) : Except Fault UShort := do
  let length ← p.protoData.getLength
  return UInt16.ofNat (1 + 1 + p.sourceAddr.getAddrSize + 2 + p.dstAddr.getAddrSize + 2 +
    length.toNat + 2)

/-- A copy whose proto data is taken over byte by byte. -/
def create (p : QTunnelProxy) : QTunnelProxy := p

/-- The encoded fields before the proto data. -/
def headerBytes (p : QTunnelProxy) : List UByte :=
  [p.netProtocol.val, p.transportProtocol.val] ++ p.sourceAddr.ip ++ bytes16 p.sourcePort ++
    p.dstAddr.ip ++ bytes16 p.dstPort

end QTunnelProxy

/-- A decoded packet: proxy data and the payload that is left behind it. -/
structure QTunnelData extends QTunnelProxy where
  data : List UByte
  deriving DecidableEq, Repr

namespace QTunnelData

/-- Two addresses of a known size with their ports, from the front of the data. -/
def readAddrs (data : List UByte) (size : ℕ) :
    Except Fault (NetAddr × UShort × NetAddr × UShort) := do
  let src ← slice data 0 size
  let srcPort ← read16 data size
  let dst ← slice data (size + 2) (size + 2 + size)
  let dstPort ← read16 data (size + 2 + size)
  return (⟨src⟩, srcPort, ⟨dst⟩, dstPort)

/-- The address size is a matter of the network protocol; unknown protocols read nothing. -/
def readAddrsByProtocol (net : NetProtocol) (data : List UByte) :
    Except Fault (NetAddr × UShort × NetAddr × UShort) :=
  if net = .IPv4 then readAddrs data 4
  else if net = .IPv6 then readAddrs data 16
  else .ok (.default, 0, .default, 0)

/-- The decoder of a reassembled packet. -/
def ofBytes (data : List UByte) : Except Fault QTunnelData := do
  let net ← readAt data 0
  let transport ← readAt data 1
  let data ← eraseFront data 2
  let (src, srcPort, dst, dstPort) ← readAddrsByProtocol ⟨net⟩ data
  -- the source address stands for both when the sizes are counted
  let data ← eraseFront data (src.getAddrSize * 2 + 4)
  let size ← read16 data 0
  let fullSize := size.toNat + 2
  let protoBytes ← slice data 2 fullSize
  let payload ← eraseFront data fullSize
  return ⟨⟨⟨net⟩, ⟨transport⟩, src, srcPort, dst, dstPort, .ofLength size protoBytes⟩, payload⟩

end QTunnelData

/-- The bytes of a whole packet in the tunnel, before it is cut into fragments. -/
def QTunnelProxy.encode (p : QTunnelProxy) (payload : List UByte) : List UByte :=
  p.headerBytes ++ p.protoData.data ++ payload

/-- The address sizes that belong to the network protocol. -/
def QTunnelProxy.AddrsMatch (p : QTunnelProxy) : Prop :=
  (p.netProtocol = .IPv4 ∧ p.sourceAddr.ip.length = 4 ∧ p.dstAddr.ip.length = 4) ∨
    (p.netProtocol = .IPv6 ∧ p.sourceAddr.ip.length = 16 ∧ p.dstAddr.ip.length = 16)

/-- What the addresses and ports were read from. -/
theorem QTunnelData.readAddrs_eq_ok_iff {data : List UByte} {size : ℕ} {src dst : NetAddr}
    {srcPort dstPort : UShort} :
    readAddrs data size = .ok (src, srcPort, dst, dstPort) ↔
      slice data 0 size = .ok src.ip ∧ read16 data size = .ok srcPort ∧
        slice data (size + 2) (size + 2 + size) = .ok dst.ip ∧
          read16 data (size + 2 + size) = .ok dstPort := by
  constructor
  · intro h
    obtain ⟨srcBytes, hsrc, h⟩ := bind_eq_ok_iff.mp h
    obtain ⟨srcPort', hsrcPort, h⟩ := bind_eq_ok_iff.mp h
    obtain ⟨dstBytes, hdst, h⟩ := bind_eq_ok_iff.mp h
    obtain ⟨dstPort', hdstPort, h⟩ := bind_eq_ok_iff.mp h
    cases Except.ok.inj h
    exact ⟨hsrc, hsrcPort, hdst, hdstPort⟩
  · intro ⟨hsrc, hsrcPort, hdst, hdstPort⟩
    rw [readAddrs, hsrc, ok_bind, hsrcPort, ok_bind, hdst, ok_bind, hdstPort]
    rfl

/-- Reading addresses back from where they were written. -/
theorem QTunnelData.readAddrs_append {src dst : List UByte} {size : ℕ} (hsrc : src.length = size)
    (hdst : dst.length = size) (srcPort dstPort : UShort) (rest : List UByte) :
    readAddrs (src ++ bytes16 srcPort ++ dst ++ bytes16 dstPort ++ rest) size =
      .ok (⟨src⟩, srcPort, ⟨dst⟩, dstPort) := by
  have hs : slice (src ++ bytes16 srcPort ++ dst ++ bytes16 dstPort ++ rest) 0 size = .ok src := by
    have h := slice_prefix src (bytes16 srcPort ++ dst ++ bytes16 dstPort ++ rest) size
      (by rw [hsrc])
    simpa only [List.append_assoc] using h
  have hd : slice (src ++ bytes16 srcPort ++ dst ++ bytes16 dstPort ++ rest) (size + 2)
      (size + 2 + size) = .ok dst := by
    have h := slice_append (src ++ bytes16 srcPort) dst (bytes16 dstPort ++ rest) (size + 2)
      (size + 2 + size) (by simp [hsrc]) (by simp [hsrc, hdst])
    simpa only [List.append_assoc] using h
  have hsp : read16 (src ++ bytes16 srcPort ++ dst ++ bytes16 dstPort ++ rest) size =
      .ok srcPort := by
    have h := read16_append src srcPort (dst ++ bytes16 dstPort ++ rest)
    simpa only [List.append_assoc, hsrc] using h
  have hdp : read16 (src ++ bytes16 srcPort ++ dst ++ bytes16 dstPort ++ rest) (size + 2 + size) =
      .ok dstPort := by
    have h := read16_append (src ++ bytes16 srcPort ++ dst) dstPort rest
    have hlen : (src ++ bytes16 srcPort ++ dst).length = size + 2 + size := by
      simp [hsrc, hdst]
      omega
    rwa [hlen] at h
  exact readAddrs_eq_ok_iff.mpr ⟨hs, hsp, hd, hdp⟩

/-- Decoding an encoded packet gives back its proxy data and payload. -/
theorem QTunnelData.ofBytes_encode {p : QTunnelProxy} (haddr : p.AddrsMatch)
    (hproto : p.protoData.WellFormed) (payload : List UByte) :
    QTunnelData.ofBytes (p.encode payload) = .ok ⟨p, payload⟩ := by
  obtain ⟨⟨net⟩, ⟨transport⟩, ⟨src⟩, srcPort, ⟨dst⟩, dstPort, protoData⟩ := p
  obtain ⟨length, bytes, rfl, hlength⟩ := hproto
  have hread : readAddrsByProtocol ⟨net⟩ (src ++ bytes16 srcPort ++ dst ++ bytes16 dstPort ++
      (bytes16 length ++ bytes ++ payload)) = .ok (⟨src⟩, srcPort, ⟨dst⟩, dstPort) := by
    rcases haddr with ⟨hnet, hsrc, hdst⟩ | ⟨hnet, hsrc, hdst⟩
    · rw [readAddrsByProtocol, if_pos hnet, readAddrs_append hsrc hdst]
    · have hne : (⟨net⟩ : NetProtocol) ≠ .IPv4 := by
        simp only at hnet
        rw [hnet]
        decide
      rw [readAddrsByProtocol, if_neg hne, if_pos hnet, readAddrs_append hsrc hdst]
  have hsize : src.length = dst.length := by
    rcases haddr with ⟨-, hsrc, hdst⟩ | ⟨-, hsrc, hdst⟩ <;> exact hsrc.trans hdst.symm
  have hslice : slice (bytes16 length ++ bytes ++ payload) 2 ((length.toNat + 2 : ℕ) : ℤ) =
      .ok bytes :=
    slice_append _ _ _ _ _ rfl (by simp [hlength]; omega)
  have herase : eraseFront (bytes16 length ++ bytes ++ payload) (length.toNat + 2) = .ok payload :=
    eraseFront_append _ _ _ (by simp [hlength]; omega)
  have hmeta : eraseFront (src ++ bytes16 srcPort ++ dst ++ bytes16 dstPort ++
      (bytes16 length ++ bytes ++ payload)) (src.length * 2 + 4) =
      .ok (bytes16 length ++ bytes ++ payload) :=
    eraseFront_append _ _ _ (by simp [hsize]; omega)
  have hword : read16 (bytes16 length ++ bytes ++ payload) 0 = .ok length := by
    simpa using read16_append [] length (bytes ++ payload)
  have hbytes : QTunnelProxy.encode ⟨⟨net⟩, ⟨transport⟩, ⟨src⟩, srcPort, ⟨dst⟩, dstPort,
      .ofLength length bytes⟩ payload = [net, transport] ++ (src ++ bytes16 srcPort ++ dst ++
        bytes16 dstPort ++ (bytes16 length ++ bytes ++ payload)) := by
    simp only [QTunnelProxy.encode, QTunnelProxy.headerBytes, QTunnelProtoData.ofLength,
      List.append_assoc]
  have hfront (rest : List UByte) : eraseFront ([net, transport] ++ rest) 2 = .ok rest :=
    eraseFront_append _ _ _ rfl
  have hnet (rest : List UByte) : readAt ([net, transport] ++ rest) 0 = .ok net := rfl
  have htransport (rest : List UByte) : readAt ([net, transport] ++ rest) 1 = .ok transport := rfl
  rw [hbytes, ofBytes, hnet, ok_bind, htransport, ok_bind, hfront, ok_bind, hread, ok_bind]
  dsimp only [NetAddr.getAddrSize]
  rw [hmeta, ok_bind, hword, ok_bind, hslice, ok_bind, herase]
  rfl

/-- What a packet was decoded from: `rest` stands behind the protocols, and `body` behind the
addresses. -/
structure QTunnelData.DecodedFrom (packet : QTunnelData) (data rest body : List UByte)
    (size : UShort) (protoBytes : List UByte) : Prop where
  net : readAt data 0 = .ok packet.netProtocol.val
  transport : readAt data 1 = .ok packet.transportProtocol.val
  rest_eq : eraseFront data 2 = .ok rest
  addrs : readAddrsByProtocol packet.netProtocol rest =
    .ok (packet.sourceAddr, packet.sourcePort, packet.dstAddr, packet.dstPort)
  body_eq : eraseFront rest (packet.sourceAddr.getAddrSize * 2 + 4) = .ok body
  size_eq : read16 body 0 = .ok size
  slice_eq : slice body 2 ((size.toNat + 2 : ℕ) : ℤ) = .ok protoBytes
  protoData : packet.protoData = .ofLength size protoBytes
  payload : eraseFront body (size.toNat + 2) = .ok packet.data

/-- Whatever is decoded was decoded from parts of the bytes. -/
theorem QTunnelData.exists_decodedFrom {data : List UByte} {packet : QTunnelData}
    (h : ofBytes data = .ok packet) :
    ∃ rest body size protoBytes, packet.DecodedFrom data rest body size protoBytes := by
  obtain ⟨net, hnet, h⟩ := bind_eq_ok_iff.mp h
  obtain ⟨transport, htransport, h⟩ := bind_eq_ok_iff.mp h
  obtain ⟨rest, hrest, h⟩ := bind_eq_ok_iff.mp h
  obtain ⟨⟨src, srcPort, dst, dstPort⟩, haddrs, h⟩ := bind_eq_ok_iff.mp h
  obtain ⟨body, hbody, h⟩ := bind_eq_ok_iff.mp h
  obtain ⟨size, hsize, h⟩ := bind_eq_ok_iff.mp h
  obtain ⟨protoBytes, hproto, h⟩ := bind_eq_ok_iff.mp h
  obtain ⟨payload, hpayload, h⟩ := bind_eq_ok_iff.mp h
  cases Except.ok.inj h
  exact ⟨rest, body, size, protoBytes, hnet, htransport, hrest, haddrs, hbody, hsize, hproto, rfl,
    hpayload⟩

/-- A decoded packet with matching addresses was decoded from as many bytes as it encodes to. -/
theorem QTunnelData.ofBytes_length {data : List UByte} {packet : QTunnelData}
    (h : ofBytes data = .ok packet) (haddr : packet.AddrsMatch) :
    (packet.encode packet.data).length = data.length := by
  obtain ⟨rest, body, size, protoBytes, hfrom⟩ := exists_decodedFrom h
  have hsame : packet.sourceAddr.ip.length = packet.dstAddr.ip.length := by
    rcases haddr with ⟨-, hsrc, hdst⟩ | ⟨-, hsrc, hdst⟩ <;> exact hsrc.trans hdst.symm
  have hfront := eraseFront_length hfrom.rest_eq
  have hmiddle := eraseFront_length hfrom.body_eq
  have hback := eraseFront_length hfrom.payload
  have hslice := slice_length hfrom.slice_eq
  rw [NetAddr.getAddrSize] at hmiddle
  simp only [QTunnelProxy.encode, QTunnelProxy.headerBytes, hfrom.protoData,
    QTunnelProtoData.ofLength, List.length_append, List.length_cons, List.length_nil,
    bytes16_length]
  omega

end QVPN
